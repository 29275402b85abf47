import FormRules.Proofs.Expr.Placed
import FormRules.Proofs.Expr.Recursion
import FormRules.Proofs.Expr.Spelling

/-!
# What the parser reads is a phrase

Whenever a parsing function answers with a tree, the tokens that it has taken are those of a phrase
of its level, and the phrase builds that tree where they stand.
-/

namespace FormRules

open Grammar

namespace Parsed

variable {bound : Nat} {α : Type} {post post' : α → Cursor → Prop}

/-- If the answer is a value, then the value and the cursor after it satisfy a condition. -/
def Yields (post : α → Cursor → Prop) : Parsed bound α → Prop
  | .ok value s _ => post value s
  | .error _ _ => True

theorem Yields.imp {answer : Parsed bound α} (h : answer.Yields post)
    (further : ∀ value s, post value s → post' value s) : answer.Yields post' := by
  cases answer with
  | ok value s moved => exact further value s h
  | error fault s => trivial

theorem Yields.leave {answer : Parsed bound α} (h : answer.Yields post)
    (further : ∀ value s, post value s → post' value s.leave) : answer.leave.Yields post' := by
  cases answer with
  | ok value s moved => exact further value s h
  | error fault s => trivial

theorem Yields.widen {wider : Nat} {answer : Parsed bound α} (h : answer.Yields post)
    (le : bound ≤ wider) : (answer.widen le).Yields post := by
  cases answer with
  | ok value s moved => exact h
  | error fault s => trivial

end Parsed

namespace Expr

/-! ## What has been taken -/

/-- The tokens between two places are those of a phrase that builds the tree there. -/
def Spelt (level : Level) (before : List PlacedToken) (node : Sized) (s : Cursor) : Prop :=
  ∃ (p : Phrase level) (taken : List PlacedToken), before = taken ++ s.rest ∧
    taken.map PlacedToken.token = p.tokens ∧ node.expr = p.treeAt (before.map PlacedToken.offset)

/-- The tokens between two places continue a chain and build the tree on what stands to the left. -/
def Continued (level : Level) (first : Sized) (before : List PlacedToken) (node : Sized)
    (s : Cursor) : Prop :=
  ∃ (links : Links level level.tighter) (taken : List PlacedToken), before = taken ++ s.rest ∧
    taken.map PlacedToken.token = links.tokens ∧
      node.expr = links.treeAt first.expr (before.map PlacedToken.offset)

/-- The tokens between two places are those of arguments with these trees. -/
def Listed (before : List PlacedToken) (nodes : List Sized) (s : Cursor) : Prop :=
  ∃ (arguments : Arguments) (taken : List PlacedToken), before = taken ++ s.rest ∧
    taken.map PlacedToken.token = arguments.tokens ∧
      nodes.map Sized.expr = arguments.treesAt (before.map PlacedToken.offset)

/-- The tokens between two places are those of no or more arguments with these trees. -/
def Enclosed (before : List PlacedToken) (nodes : List Sized) (s : Cursor) : Prop :=
  nodes = [] ∧ before = s.rest ∨ Listed before nodes s

theorem Spelt.tighten {level inner : Level} {before : List PlacedToken} {node : Sized}
    {s : Cursor} (h : Spelt inner before node s) (lift : Phrase inner → Phrase level)
    (tokens_lift : ∀ p, (lift p).tokens = p.tokens)
    (tree_lift : ∀ p, (lift p).treeAt = p.treeAt) : Spelt level before node s := by
  obtain ⟨p, taken, split, tokens_eq, tree_eq⟩ := h
  exact ⟨lift p, taken, split, by rw [tokens_lift, tokens_eq], by rw [tree_lift, tree_eq]⟩

theorem Enclosed.call {w : String} {before : List PlacedToken} {nodes : List Sized}
    {s s' : Cursor} {offset opening closing height : Nat} (isName : IsName w)
    (h : Enclosed before nodes s) (close : s.rest = ⟨.rightParen, closing⟩ :: s'.rest) :
    Spelt .operand (⟨.word w, offset⟩ :: ⟨.leftParen, opening⟩ :: before)
      ⟨.call w (nodes.map Sized.expr) offset, height⟩ s' := by
  rcases h with ⟨rfl, rfl⟩ | ⟨arguments, taken, split, tokens_eq, trees_eq⟩
  · refine ⟨.call w isName,
      [⟨.word w, offset⟩, ⟨.leftParen, opening⟩, ⟨.rightParen, closing⟩], ?_, rfl, rfl⟩
    rw [close]
    rfl
  · refine ⟨.callWith w isName arguments,
      ⟨.word w, offset⟩ :: ⟨.leftParen, opening⟩ :: (taken ++ [⟨.rightParen, closing⟩]), ?_, ?_, ?_⟩
    · rw [split, close, List.cons_append, List.cons_append, List.append_assoc]
      rfl
    · rw [List.map_cons, List.map_cons, List.map_append, tokens_eq]
      rfl
    · rw [trees_eq]
      rfl

/-! ## The steps that take no phrase -/

theorem yields_grow {bound height : Nat} {e : Expr} {s : Cursor} {moved : s.left < bound}
    {post : Sized → Cursor → Prop} (h : post ⟨e, height⟩ s) :
    (grow e height s moved).Yields post := by
  unfold grow
  split
  · exact h
  · trivial

theorem yields_closing {bound : Nat} {α : Type} (opening : Nat) (value : α) (s : Cursor)
    (moved : s.left < bound) :
    (closing opening value s moved).Yields
      fun found s' ↦ found = value ∧ ∃ place, s.rest = ⟨.rightParen, place⟩ :: s'.rest := by
  unfold closing
  split
  · trivial
  · rename_i t rest hs
    split
    · rename_i ht
      refine ⟨rfl, t.offset, ?_⟩
      rw [hs, ← ht]
      rfl
    · trivial

theorem yields_parseVariable {bound : Nat} {word : String} (isName : IsName word) (offset : Nat)
    (s : Cursor) (moved : s.left < bound) :
    (parseVariable word offset s moved).Yields
      (Spelt .operand (⟨.word word, offset⟩ :: s.rest)) := by
  unfold parseVariable
  split
  · trivial
  · rename_i name rest h
    obtain ⟨properties, taken, split_eq, tokens_eq, rfl⟩ := dottedName_sound h
    dsimp only
    split
    · trivial
    · refine ⟨.name word isName properties, ⟨.word word, offset⟩ :: taken, ?_, ?_, rfl⟩
      · rw [split_eq]
        rfl
      · rw [List.map_cons, tokens_eq, Phrase.tokens]

theorem yields_enclosed {bound : Nat} {s : Cursor} (moved : s.left < bound)
    (h : (parseArguments s.enter).Yields (Listed s.rest)) :
    (if s.peek = some .rightParen then .ok [] s.enter moved
      else (parseArguments s.enter).widen (Nat.le_of_lt moved) :
      Parsed bound (List Sized)).leave.Yields (Enclosed s.rest) := by
  split
  · exact .inl ⟨rfl, rfl⟩
  · exact (h.widen _).leave fun _ _ listed ↦ .inr listed

theorem word_of_truth {w : String} (h : (w = "true" || w = "false") = true) :
    (if decide (w = "true") = true then "true" else "false") = w := by
  rcases (Bool.or_eq_true ..).mp h with h | h
  · rw [if_pos h, of_decide_eq_true h]
  · rw [of_decide_eq_true h]
    rfl

/-! ## The parsing functions, given what those that they call read -/

variable {level : Level} {s : Cursor}

theorem yields_chain (form : level.form = .chain)
    (first_spelt : (parseAt level.tighter s).Yields (Spelt level.tighter s.rest))
    (continued : ∀ first s₁ (moved : s₁.left < s.left),
      (parseChain level first s₁ moved).Yields (Continued level first s₁.rest)) :
    (parseAt level s).Yields (Spelt level s.rest) := by
  rw [parseAt]
  split
  · split
    · trivial
    · rename_i first s₁ moved answer
      rw [answer] at first_spelt
      obtain ⟨p, taken, split_eq, tokens_eq, tree_eq⟩ := first_spelt
      refine (continued first s₁ moved).imp ?_
      rintro node s₂ ⟨links, more, split_eq', more_eq, node_eq⟩
      refine ⟨.chain (.of_form form) p links, taken ++ more, ?_, ?_, ?_⟩
      · rw [split_eq, split_eq', List.append_assoc]
      · rw [List.map_append, tokens_eq, more_eq, Phrase.tokens]
      · rw [node_eq, tree_eq, Phrase.treeAt, split_eq, drop_offsets tokens_eq]
  · rename_i other
    cases form.symm.trans other
  · rename_i other
    cases form.symm.trans other
  · rename_i other
    cases form.symm.trans other

theorem yields_prefixed (form : level.form = .prefixed)
    (plain_spelt : (parseAt level.tighter s).Yields (Spelt level.tighter s.rest))
    (operand_spelt : ∀ t rest, s.rest = t :: rest →
      (parseAt level (s.goto rest).enter).Yields (Spelt level rest)) :
    (parseAt level s).Yields (Spelt level s.rest) := by
  have plain : (parseAt level.tighter s).Yields (Spelt level s.rest) :=
    plain_spelt.imp fun _ _ spelt ↦
      spelt.tighten (.plain (.of_form form)) (fun _ ↦ rfl) (fun _ ↦ rfl)
  rw [parseAt]
  split
  · rename_i other
    cases form.symm.trans other
  · split
    · exact plain
    · rename_i t rest hs
      split
      · exact plain
      · rename_i op spelled
        dsimp only
        split
        · have outside : (parseAt level (s.goto rest).enter).leave.Yields (Spelt level rest) :=
            (operand_spelt t rest hs).leave fun _ _ spelt ↦ spelt
          split
          · trivial
          · rename_i operand s₂ moved answer
            rw [answer] at outside
            obtain ⟨p, taken, split_eq, tokens_eq, tree_eq⟩ := outside
            refine yields_grow
              ⟨.applied op t.token (applies_iff.mpr spelled) p, t :: taken, ?_, ?_, ?_⟩
            · rw [hs, split_eq, List.cons_append]
            · rw [List.map_cons, tokens_eq, Phrase.tokens]
            · rw [tree_eq, hs]
              rfl
        · trivial
  · rename_i other
    cases form.symm.trans other
  · rename_i other
    cases form.symm.trans other

theorem yields_pair (left_spelt : (parseAt .sum s).Yields (Spelt .sum s.rest))
    (right_spelt : ∀ (s₁ : Cursor) t rest, s₁.left < s.left → s₁.rest = t :: rest →
      (parseAt .sum (s₁.goto rest)).Yields (Spelt .sum rest)) :
    (parseAt .comparison s).Yields (Spelt .comparison s.rest) := by
  rw [parseAt]
  dsimp only [Level.form, Level.tighter]
  split
  · trivial
  · rename_i left s₁ moved answer
    rw [answer] at left_spelt
    split
    · exact left_spelt.tighten .single (fun _ ↦ rfl) (fun _ ↦ rfl)
    · rename_i t rest hs
      split
      · exact left_spelt.tighten .single (fun _ ↦ rfl) (fun _ ↦ rfl)
      · rename_i op spelled
        have right_spelt := right_spelt s₁ t rest moved hs
        split
        · trivial
        · rename_i right s₂ moved₂ answer₂
          rw [answer₂] at right_spelt
          split
          · trivial
          · obtain ⟨p, taken, split_eq, tokens_eq, tree_eq⟩ := left_spelt
            obtain ⟨q, more, split_eq', more_eq, right_eq⟩ := right_spelt
            refine yields_grow
              ⟨.compared p op t.token (joins_iff.mpr spelled) q, taken ++ t :: more, ?_, ?_, ?_⟩
            · rw [split_eq, hs, split_eq', List.append_assoc, List.cons_append]
            · rw [List.map_append, tokens_eq, List.map_cons, more_eq, Phrase.tokens]
            · rw [tree_eq, right_eq, Phrase.treeAt, split_eq, drop_offsets tokens_eq, hs]
              rfl

theorem yields_links {bound : Nat} {first : Sized} {moved : s.left < bound}
    (second_spelt : ∀ t rest, s.rest = t :: rest →
      (parseAt level.tighter (s.goto rest)).Yields (Spelt level.tighter rest))
    (continued : ∀ both s₂ (moved : s₂.left < bound), s₂.left < s.left →
      (parseChain level both s₂ moved).Yields (Continued level both s₂.rest)) :
    (parseChain level first s moved).Yields (Continued level first s.rest) := by
  rw [parseChain]
  split
  · exact ⟨.done, [], rfl, rfl, rfl⟩
  · rename_i t rest hs
    have fewer := Cursor.left_goto_lt hs
    split
    · exact ⟨.done, [], rfl, rfl, rfl⟩
    · rename_i op spelled
      have second_spelt := second_spelt t rest hs
      split
      · trivial
      · rename_i second s₁ moved₁ answer
        rw [answer] at second_spelt
        obtain ⟨p, taken, split_eq, tokens_eq, tree_eq⟩ := second_spelt
        have grown : (grow (.binary op first.expr second.expr t.offset)
            (max first.height second.height + 1) s₁ moved₁).Yields fun both s₂ ↦
              both.expr = .binary op first.expr second.expr t.offset ∧ s₂ = s₁ :=
          yields_grow ⟨rfl, rfl⟩
        split
        · trivial
        · rename_i both s₂ moved₂ answer₂
          rw [answer₂] at grown
          obtain ⟨both_eq, rfl⟩ := grown
          refine (continued both s₂ _ (Nat.lt_trans moved₂ fewer)).imp ?_
          rintro node s₃ ⟨links, more, split_eq', more_eq, node_eq⟩
          refine ⟨.link op t.token (joins_iff.mpr spelled) p links, t :: (taken ++ more),
            ?_, ?_, ?_⟩
          · rw [hs, split_eq, split_eq', List.cons_append, List.append_assoc]
          · rw [List.map_cons, List.map_append, tokens_eq, more_eq, Links.tokens]
          · rw [node_eq, both_eq, tree_eq, hs, Links.treeAt, List.map_cons, List.tail_cons,
              split_eq, drop_offsets tokens_eq]
            rfl

theorem yields_operand
    (inner_spelt : ∀ t rest, s.rest = t :: rest →
      (parseAt .or (s.goto rest).enter).Yields (Spelt .or rest))
    (arguments_listed : ∀ t t' rest, s.rest = t :: t' :: rest →
      (parseArguments (s.goto rest).enter).Yields (Listed rest)) :
    (parseOperand s).Yields (Spelt .operand s.rest) := by
  generalize stands : s.rest = before
  rw [parseOperand]
  split
  · trivial
  · rename_i t rest hs
    have fewer := Cursor.left_goto_lt hs
    obtain ⟨token, offset⟩ := t
    obtain rfl : before = ⟨token, offset⟩ :: rest := stands.symm.trans hs
    dsimp only
    split
    · rename_i digits
      exact ⟨.number digits, [⟨_, offset⟩], rfl, rfl, rfl⟩
    · rename_i content
      exact ⟨.text content, [⟨_, offset⟩], rfl, rfl, rfl⟩
    · rename_i w
      split
      · rename_i truth
        refine ⟨.truth (w = "true"), [⟨_, offset⟩], rfl, ?_, rfl⟩
        rw [Phrase.tokens, word_of_truth truth]
        rfl
      · split
        · trivial
        · rename_i reserved
          have isName := isName_iff.mpr reserved
          split
          · rename_i opening rest' _ _ _ _
            have enclosed := yields_enclosed (Nat.lt_of_succ_lt fewer)
              (arguments_listed _ _ rest' hs)
            split
            · split
              · trivial
              · rename_i arguments s₂ moved₂ answer
                rw [answer] at enclosed
                have closed := yields_closing opening arguments s₂ moved₂
                split
                · trivial
                · rename_i arguments' s₃ moved₃ answer₃
                  rw [answer₃] at closed
                  obtain ⟨rfl, place, close⟩ := closed
                  exact yields_grow (enclosed.call isName close)
            · trivial
          · exact yields_parseVariable isName _ _ _
    · split
      · have outside : (parseAt .or (s.goto rest).enter).leave.Yields (Spelt .or rest) :=
          (inner_spelt _ rest hs).leave fun _ _ spelt ↦ spelt
        split
        · trivial
        · rename_i inner s₂ moved₂ answer
          rw [answer] at outside
          obtain ⟨p, taken, split_eq, tokens_eq, tree_eq⟩ := outside
          refine (yields_closing _ _ _ _).imp ?_
          rintro node s₃ ⟨rfl, place, close⟩
          refine ⟨.group p, ⟨.leftParen, offset⟩ :: (taken ++ [⟨.rightParen, place⟩]), ?_, ?_,
            tree_eq⟩
          · rw [split_eq, close, List.cons_append, List.append_assoc]
            rfl
          · rw [List.map_cons, List.map_append, tokens_eq, Phrase.tokens]
            rfl
      · trivial
    · trivial

theorem yields_arguments
    (argument_spelt : (parseAt .or s).Yields (Spelt .or s.rest))
    (more_listed : ∀ (s₁ : Cursor) t rest, s₁.left < s.left → s₁.rest = t :: rest →
      (parseArguments (s₁.goto rest)).Yields (Listed rest)) :
    (parseArguments s).Yields (Listed s.rest) := by
  rw [parseArguments]
  split
  · trivial
  · rename_i argument s₁ moved answer
    rw [answer] at argument_spelt
    obtain ⟨p, taken, split_eq, tokens_eq, tree_eq⟩ := argument_spelt
    split
    · rename_i offset rest hs
      dsimp only
      split
      · trivial
      · have more_listed := more_listed s₁ _ rest moved hs
        split
        · trivial
        · rename_i arguments s₃ moved₃ answer₃
          rw [answer₃] at more_listed
          obtain ⟨more, further, split_eq', more_eq, trees_eq⟩ := more_listed
          refine ⟨.cons p more, taken ++ ⟨.comma, offset⟩ :: further, ?_, ?_, ?_⟩
          · rw [split_eq, hs, split_eq', List.append_assoc, List.cons_append]
          · rw [List.map_append, tokens_eq, List.map_cons, more_eq, Arguments.tokens]
          · rw [List.map_cons, trees_eq, tree_eq, Arguments.treesAt, split_eq,
              drop_offsets tokens_eq, hs]
            rfl
    · exact ⟨.last p, taken, split_eq, tokens_eq, by rw [List.map_cons, tree_eq]; rfl⟩

/-! ## The recursion -/

theorem inherited_yields : Inherited (fun level s ↦ (parseAt level s).Yields (Spelt level s.rest))
    (fun level first s ↦ ∀ (bound : Nat) (moved : s.left < bound),
      (parseChain level first s moved).Yields (Continued level first s.rest))
    (fun s ↦ (parseOperand s).Yields (Spelt .operand s.rest))
    (fun s ↦ (parseArguments s).Yields (Listed s.rest)) where
  chain form first_spelt continued :=
    yields_chain form first_spelt fun first s₁ moved ↦ continued first s₁ moved _ moved
  prefixed := yields_prefixed
  pair := yields_pair
  tightest operand_spelt := by
    rw [parseAt]
    exact operand_spelt
  links second_spelt continued bound moved :=
    yields_links second_spelt fun both s₂ moved₂ fewer ↦ continued both s₂ fewer bound moved₂
  operand := yields_operand
  arguments := yields_arguments

theorem yields_parseAt (level : Level) (s : Cursor) :
    (parseAt level s).Yields (Spelt level s.rest) := inherited_yields.parseAt level s

end Expr

end FormRules
