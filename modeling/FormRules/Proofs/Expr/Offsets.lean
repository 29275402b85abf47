import FormRules.Proofs.Expr.Exact
import Mathlib.Data.List.Forall2

/-!
# Where the nodes of an expression stand

Every node has the offset of one of the tokens that the expression is made from, and in the order of
the text no two nodes share a token. So the offsets tell the nodes apart and lead back to the text
that each of them was read from.
-/

namespace FormRules

open Grammar

namespace Expr

mutual

/-- The nodes of an expression in the order of the text: an operator stands before its operand or
between its operands, and a call before its arguments. -/
def nodes : Expr → List Expr
  | .literal value offset => [.literal value offset]
  | .reference name offset => [.reference name offset]
  | .unary op operand offset => .unary op operand offset :: operand.nodes
  | .binary op left right offset =>
    left.nodes ++ .binary op left right offset :: right.nodes
  | .call name arguments offset => .call name arguments offset :: nodesAll arguments

def nodesAll : List Expr → List Expr
  | [] => []
  | e :: rest => e.nodes ++ nodesAll rest

end

/-- The token that stands where a node does: the number, text or word that the node is, the first
word of a name, or the sign or keyword of an operator. -/
inductive Introduces : Token → Expr → Prop
  | number {digits : String} {offset : Nat} :
    Introduces (.number digits) (.literal (.number digits) offset)
  | text {content : String} {offset : Nat} :
    Introduces (.text content) (.literal (.text content) offset)
  | boolean {value : Bool} {offset : Nat} :
    Introduces (.word (if value then "true" else "false")) (.literal (.boolean value) offset)
  | reference {first : String} {properties : List String} {offset : Nat} :
    Introduces (.word first) (.reference (".".intercalate (first :: properties)) offset)
  | unary {level : Level} {op : UnaryOp} {sign : Token} {operand : Expr} {offset : Nat} :
    Applies level op sign → Introduces sign (.unary op operand offset)
  | binary {level : Level} {op : BinaryOp} {sign : Token} {left right : Expr} {offset : Nat} :
    Joins level op sign → Introduces sign (.binary op left right offset)
  | call {name : String} {arguments : List Expr} {offset : Nat} :
    Introduces (.word name) (.call name arguments offset)

/-- A node stands where a token that introduces it does. -/
def StandsAt (node : Expr) (t : PlacedToken) : Prop :=
  Introduces t.token node ∧ node.offset = t.offset

/-- Nodes stand, one after the other, at some of these tokens. -/
def StandAmong (nodes : List Expr) (tokens : List PlacedToken) : Prop :=
  ∃ marks, List.Forall₂ StandsAt nodes marks ∧ marks.Sublist tokens

variable {node : Expr} {nodes nodes' : List Expr} {t : PlacedToken}
  {tokens tokens' : List PlacedToken}

theorem standAmong_nil (tokens : List PlacedToken) : StandAmong [] tokens :=
  ⟨[], .nil, List.nil_sublist tokens⟩

theorem StandAmong.append (h : StandAmong nodes tokens) (h' : StandAmong nodes' tokens') :
    StandAmong (nodes ++ nodes') (tokens ++ tokens') := by
  obtain ⟨marks, stand, among⟩ := h
  obtain ⟨marks', stand', among'⟩ := h'
  exact ⟨marks ++ marks', List.rel_append stand stand', among.append among'⟩

theorem StandAmong.cons (first : StandsAt node t) (h : StandAmong nodes tokens) :
    StandAmong (node :: nodes) (t :: tokens) := by
  obtain ⟨marks, stand, among⟩ := h
  exact ⟨t :: marks, .cons first stand, among.cons_cons t⟩

theorem StandAmong.skip (t : PlacedToken) (h : StandAmong nodes tokens) :
    StandAmong nodes (t :: tokens) := by
  obtain ⟨marks, stand, among⟩ := h
  exact ⟨marks, stand, among.cons t⟩

theorem StandAmong.skipLast (tokens' : List PlacedToken) (h : StandAmong nodes tokens) :
    StandAmong nodes (tokens ++ tokens') := by
  obtain ⟨marks, stand, among⟩ := h
  exact ⟨marks, stand, among.trans (List.sublist_append_left tokens tokens')⟩

theorem StandAmong.exists_token (h : StandAmong nodes tokens) (member : node ∈ nodes) :
    ∃ t ∈ tokens, StandsAt node t := by
  obtain ⟨marks, stand, among⟩ := h
  have marked : ∃ t ∈ marks, StandsAt node t := by
    clear among
    induction stand with
    | nil => cases member
    | cons first _ ih =>
      rcases List.mem_cons.mp member with rfl | further
      · exact ⟨_, List.mem_cons_self, first⟩
      · obtain ⟨t, marked, standsAt⟩ := ih further
        exact ⟨t, List.mem_cons_of_mem _ marked, standsAt⟩
  obtain ⟨t, marked, standsAt⟩ := marked
  exact ⟨t, among.subset marked, standsAt⟩

theorem StandAmong.offsets (h : StandAmong nodes tokens) :
    (nodes.map offset).Sublist (tokens.map PlacedToken.offset) := by
  obtain ⟨marks, stand, among⟩ := h
  have same : nodes.map offset = marks.map PlacedToken.offset := by
    clear among
    induction stand with
    | nil => rfl
    | cons first _ ih => rw [List.map_cons, List.map_cons, first.2, ih]
  rw [same]
  exact among.map PlacedToken.offset

end Expr

open FormRules.Expr

mutual

/-- The nodes that a phrase builds stand among its tokens. -/
theorem Phrase.standAmong : {level : Level} → (p : Phrase level) → {taken : List PlacedToken} →
    (rest : List PlacedToken) → taken.map PlacedToken.token = p.tokens →
      StandAmong (p.treeAt ((taken ++ rest).map PlacedToken.offset)).nodes taken
  | _, .chain _ first more, taken, rest, h => by
    obtain ⟨start, further, rfl, start_eq, further_eq⟩ := List.map_eq_append_iff.mp h
    rw [List.append_assoc, Phrase.treeAt, drop_offsets start_eq]
    exact more.standAmong rest (first.standAmong _ start_eq) further_eq
  | _, .applied op sign spelled operand, taken, rest, h => by
    obtain ⟨t, further, rfl, rfl, further_eq⟩ := List.map_eq_cons_iff.mp h
    exact (operand.standAmong rest further_eq).cons ⟨.unary spelled, rfl⟩
  | _, .plain _ operand, taken, rest, h => operand.standAmong rest h
  | _, .single only, taken, rest, h => only.standAmong rest h
  | _, .compared left op sign spelled right, taken, rest, h => by
    obtain ⟨start, further, rfl, start_eq, further_eq⟩ := List.map_eq_append_iff.mp h
    obtain ⟨t, last, rfl, rfl, last_eq⟩ := List.map_eq_cons_iff.mp further_eq
    rw [List.append_assoc, Phrase.treeAt, drop_offsets start_eq, nodes]
    exact (left.standAmong _ start_eq).append
      ((right.standAmong rest last_eq).cons ⟨.binary spelled, rfl⟩)
  | _, .number digits, taken, rest, h => by
    obtain ⟨t, last, rfl, token_eq, -⟩ := List.map_eq_cons_iff.mp h
    exact (standAmong_nil last).cons ⟨token_eq ▸ .number, rfl⟩
  | _, .text content, taken, rest, h => by
    obtain ⟨t, last, rfl, token_eq, -⟩ := List.map_eq_cons_iff.mp h
    exact (standAmong_nil last).cons ⟨token_eq ▸ .text, rfl⟩
  | _, .truth value, taken, rest, h => by
    obtain ⟨t, last, rfl, token_eq, -⟩ := List.map_eq_cons_iff.mp h
    exact (standAmong_nil last).cons ⟨token_eq ▸ .boolean, rfl⟩
  | _, .group inner, taken, rest, h => by
    obtain ⟨t, further, rfl, -, further_eq⟩ := List.map_eq_cons_iff.mp h
    obtain ⟨body, last, rfl, body_eq, -⟩ := List.map_eq_append_iff.mp further_eq
    rw [List.cons_append, List.append_assoc]
    exact ((inner.standAmong _ body_eq).skipLast last).skip t
  | _, .name first _ properties, taken, rest, h => by
    obtain ⟨t, last, rfl, token_eq, -⟩ := List.map_eq_cons_iff.mp h
    exact (standAmong_nil last).cons ⟨token_eq ▸ .reference, rfl⟩
  | _, .call function _, taken, rest, h => by
    obtain ⟨t, last, rfl, token_eq, -⟩ := List.map_eq_cons_iff.mp h
    exact (standAmong_nil last).cons ⟨token_eq ▸ .call, rfl⟩
  | _, .callWith function _ arguments, taken, rest, h => by
    obtain ⟨t, further, rfl, token_eq, further_eq⟩ := List.map_eq_cons_iff.mp h
    obtain ⟨opening, inside, rfl, -, inside_eq⟩ := List.map_eq_cons_iff.mp further_eq
    obtain ⟨body, last, rfl, body_eq, -⟩ := List.map_eq_append_iff.mp inside_eq
    rw [List.cons_append, List.cons_append, List.append_assoc]
    exact (((arguments.standAmong _ body_eq).skipLast last).skip opening).cons
      ⟨token_eq ▸ .call, rfl⟩

theorem Links.standAmong : {level inner : Level} → (links : Links level inner) → {left : Expr} →
    {before taken : List PlacedToken} → (rest : List PlacedToken) →
    StandAmong left.nodes before → taken.map PlacedToken.token = links.tokens →
      StandAmong (links.treeAt left ((taken ++ rest).map PlacedToken.offset)).nodes
        (before ++ taken)
  | _, _, .done, left, before, taken, rest, stand, h => stand.skipLast taken
  | _, _, .link op sign spelled operand more, left, before, taken, rest, stand, h => by
    obtain ⟨t, further, rfl, rfl, further_eq⟩ := List.map_eq_cons_iff.mp h
    obtain ⟨start, last, rfl, start_eq, last_eq⟩ := List.map_eq_append_iff.mp further_eq
    have regroup : before ++ t :: (start ++ last) = before ++ t :: start ++ last := by simp
    rw [regroup, List.cons_append, List.append_assoc start, List.map_cons, Links.treeAt,
      List.tail_cons, drop_offsets start_eq]
    refine more.standAmong rest ?_ last_eq
    rw [nodes]
    exact stand.append ((operand.standAmong _ start_eq).cons ⟨.binary spelled, rfl⟩)

theorem Arguments.standAmong : (arguments : Arguments) → {taken : List PlacedToken} →
    (rest : List PlacedToken) → taken.map PlacedToken.token = arguments.tokens →
      StandAmong (nodesAll (arguments.treesAt ((taken ++ rest).map PlacedToken.offset))) taken
  | .last argument, taken, rest, h => by
    rw [Arguments.treesAt, nodesAll, nodesAll, List.append_nil]
    exact argument.standAmong rest h
  | .cons argument more, taken, rest, h => by
    obtain ⟨start, further, rfl, start_eq, further_eq⟩ := List.map_eq_append_iff.mp h
    obtain ⟨comma, last, rfl, -, last_eq⟩ := List.map_eq_cons_iff.mp further_eq
    rw [List.append_assoc, Arguments.treesAt, drop_offsets start_eq, nodesAll]
    exact (argument.standAmong _ start_eq).append ((more.standAmong rest last_eq).skip comma)

end

namespace Expr

/-! ## Variables -/

/-- The name of a node that is a variable. -/
def referenceName : Expr → Option String
  | .reference name _ => some name
  | _ => none

mutual

theorem names_eq_filterMap : (e : Expr) → e.names = e.nodes.filterMap referenceName
  | .literal _ _ | .reference _ _ => rfl
  | .unary _ operand _ => names_eq_filterMap operand
  | .binary _ left right _ => by
    rw [names, nodes, List.filterMap_append, names_eq_filterMap left, names_eq_filterMap right]
    rfl
  | .call _ arguments _ => namesAll_eq_filterMap arguments

theorem namesAll_eq_filterMap : (list : List Expr) →
    namesAll list = (nodesAll list).filterMap referenceName
  | [] => rfl
  | e :: rest => by
    rw [namesAll, nodesAll, List.filterMap_append, names_eq_filterMap e,
      namesAll_eq_filterMap rest]

end

theorem mem_names_iff {e : Expr} {name : String} :
    name ∈ e.names ↔ ∃ place, .reference name place ∈ e.nodes := by
  rw [names_eq_filterMap, List.mem_filterMap]
  constructor
  · rintro ⟨node, member, named⟩
    cases node with
    | reference name' place =>
      cases named
      exact ⟨place, member⟩
    | _ => cases named
  · rintro ⟨place, member⟩
    exact ⟨_, member, rfl⟩

/-- What remains when repetitions are left out is in the order of first occurrence. -/
theorem pairwise_eraseDups {α : Type} [BEq α] [LawfulBEq α] : (list : List α) →
    list.eraseDups.Pairwise fun a b ↦
      a ≠ b ∧ ∀ before after, list = before ++ b :: after → a ∈ before
  | [] => by simp
  | x :: list => by
    have rest := pairwise_eraseDups (list.filter fun b ↦ !b == x)
    have other : ∀ b ∈ (list.filter fun b ↦ !b == x).eraseDups, b ≠ x := by
      intro b member
      simpa using (List.mem_filter.mp (List.mem_eraseDups.mp member)).2
    -- Whatever is not the first of the list stands behind it.
    have behind : ∀ b before after, b ≠ x → x :: list = before ++ b :: after →
        ∃ between, before = x :: between ∧ list = between ++ b :: after := by
      intro b before after ne split
      cases before with
      | nil => exact absurd (List.cons.inj split).1.symm ne
      | cons y between =>
        obtain ⟨rfl, rest_eq⟩ := List.cons.inj split
        exact ⟨between, rfl, rest_eq⟩
    rw [List.eraseDups_cons, List.pairwise_cons]
    constructor
    · intro b member
      refine ⟨(other b member).symm, fun before after split ↦ ?_⟩
      obtain ⟨between, rfl, -⟩ := behind b before after (other b member) split
      exact List.mem_cons_self
    · refine rest.imp_of_mem fun {a b} _ member ordered ↦ ?_
      refine ⟨ordered.1, fun before after split ↦ ?_⟩
      obtain ⟨between, rfl, rfl⟩ := behind b before after (other b member) split
      have earlier := ordered.2 (between.filter fun b ↦ !b == x) (after.filter fun b ↦ !b == x) (by
        rw [List.filter_append, List.filter_cons_of_pos (by simpa using other b member)])
      exact List.mem_cons_of_mem x (List.mem_filter.mp earlier).1
termination_by list => list.length
decreasing_by exact Nat.lt_succ_of_le (List.length_filter_le _ _)

theorem nodup_variableNames (e : Expr) : e.variableNames.Nodup :=
  (pairwise_eraseDups e.names).imp And.left

/-- If the nodes stand one after the other, then the variables are listed by their first places. -/
theorem pairwise_variableNames {e : Expr} (increasing : (e.nodes.map offset).Pairwise (· < ·)) :
    e.variableNames.Pairwise fun first later ↦ first ≠ later ∧
      ∀ place, .reference later place ∈ e.nodes →
        ∃ earlier < place, .reference first earlier ∈ e.nodes := by
  refine (pairwise_eraseDups e.names).imp fun {first later} ordered ↦ ⟨ordered.1, ?_⟩
  intro place member
  obtain ⟨before, after, split⟩ := List.append_of_mem member
  have named := ordered.2 (before.filterMap referenceName) (after.filterMap referenceName) (by
    rw [names_eq_filterMap, split, List.filterMap_append]
    rfl)
  obtain ⟨node, standing, name_eq⟩ := List.mem_filterMap.mp named
  cases node with
  | reference name earlier =>
    cases name_eq
    rw [split, List.map_append, List.pairwise_append] at increasing
    refine ⟨earlier, ?_, split ▸ List.mem_append_left _ standing⟩
    exact increasing.2.2 _ (List.mem_map_of_mem standing) _ List.mem_cons_self
  | _ => cases name_eq

/-! ## What is parsed -/

theorem standAmong_of_ofTokens {list : TokenList} {e : Expr} (h : ofTokens list = .ok e) :
    StandAmong e.nodes list.tokens := by
  obtain ⟨p, spelt, rfl⟩ := ofTokens_placed h
  have stand := p.standAmong [] spelt.symm
  rwa [List.append_nil] at stand

/-- The nodes of what is parsed stand in the text one after the other, each where the text spells
it. The variables are the names of the nodes that are variables, by their first places. -/
theorem offsets_faithful (text : String) (e : Expr) (parsed : parse text = .ok e) :
    (e.nodes.map offset).Pairwise (· < ·) ∧
    (∀ node ∈ e.nodes, node.offset < text.toList.length ∧
      ∃ token lexeme after, Introduces token node ∧
        text.toList.drop node.offset = lexeme ++ after ∧
          Token.Spells Token.Decodes token lexeme ∧ Token.Longest token lexeme after) ∧
    (∀ name, name ∈ e.variableNames ↔ ∃ place, .reference name place ∈ e.nodes) ∧
    e.variableNames.Pairwise fun first later ↦ first ≠ later ∧
      ∀ place, .reference later place ∈ e.nodes →
        ∃ earlier < place, .reference first earlier ∈ e.nodes := by
  obtain ⟨list, scanned, made⟩ := exists_ofTokens_of_parse parsed
  obtain ⟨pieces, last, split, divided, rfl⟩ := Token.exists_divided_of_scan scanned
  have stand := standAmong_of_ofTokens made
  have increasing : (e.nodes.map offset).Pairwise (· < ·) :=
    (Token.increasing_placed 0 divided).1.sublist
      (stand.offsets.trans (List.sublist_append_left _ _))
  refine ⟨increasing, fun node member ↦ ?_, fun name ↦ ?_, pairwise_variableNames increasing⟩
  · obtain ⟨t, placed, introduces, offset_eq⟩ := stand.exists_token member
    obtain ⟨before, lexeme, after, found, place, spells, longest⟩ :=
      Token.exists_lexeme_of_mem_placed 0 divided placed
    obtain ⟨c, tail, rfl, -⟩ := spells.exists_cons
    have offset_eq : node.offset = before.length := by rw [offset_eq, place, Nat.zero_add]
    rw [split, found, offset_eq]
    refine ⟨by simp, t.token, c :: tail, after, introduces, ?_, spells, longest⟩
    exact List.drop_left
  · rw [variableNames, List.mem_eraseDups, mem_names_iff]

/-- A sign that is a prefix operator in one place and stands between operands in another, and a name
that is used twice. -/
theorem offsets_faithful_of_repeated_name :
    ∃ e, parse "f(b, 'x') - a.b >= -2 || b" = .ok e ∧
      e.nodes.map offset = [0, 2, 5, 10, 12, 16, 19, 20, 22, 25] ∧
      e.variableNames = ["b", "a.b"] ∧ (e.nodes.map offset).Pairwise (· < ·) ∧
      ∀ node ∈ e.nodes, ∃ token lexeme after, Introduces token node ∧
        "f(b, 'x') - a.b >= -2 || b".toList.drop node.offset = lexeme ++ after ∧
          Token.Spells Token.Decodes token lexeme := by
  have facts : (parse "f(b, 'x') - a.b >= -2 || b").toOption.map
      (fun e ↦ (e.nodes.map offset, e.variableNames)) =
        some ([0, 2, 5, 10, 12, 16, 19, 20, 22, 25], ["b", "a.b"]) := by decide +kernel
  obtain ⟨e, parsed, e_facts⟩ := exists_of_toOption_map facts
  obtain ⟨offsets_eq, names_eq⟩ := Prod.mk.inj e_facts
  obtain ⟨increasing, spelt, -, -⟩ := offsets_faithful _ e parsed
  refine ⟨e, parsed, offsets_eq, names_eq, increasing, fun node member ↦ ?_⟩
  obtain ⟨-, token, lexeme, after, introduces, found, spells, -⟩ := spelt node member
  exact ⟨token, lexeme, after, introduces, found, spells⟩

end Expr

end FormRules
