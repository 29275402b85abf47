import FormRules.Proofs.Expr.Exact
import Mathlib.Data.List.Chain

/-!
# Signs and keywords for operators

The logical operators can be written as signs or as keywords. Wherever an operator may stand both
are the same to the grammar, and an operand begins with neither. Only after a dot does a keyword
name a property, where a sign would be out of place.
-/

namespace FormRules

open Grammar

namespace Token

/-- The keyword for an operator that is written as a sign. -/
def keyword : Token → Token
  | .and => .word "and"
  | .or => .word "or"
  | .not => .word "not"
  | t => t

/-- A logical operator in either spelling. -/
def IsLogical (t : Token) : Prop := t.keyword ∈ [.word "and", .word "or", .word "not"]

instance : DecidablePred IsLogical := fun t ↦
  inferInstanceAs (Decidable (t.keyword ∈ [.word "and", .word "or", .word "not"]))

/-- No logical operator follows a dot. -/
def Undotted (tokens : List Token) : Prop :=
  tokens.IsChain fun t next ↦ t = .dot → ¬next.IsLogical

instance : DecidablePred Undotted := fun tokens ↦
  inferInstanceAs (Decidable (tokens.IsChain fun t next ↦ t = .dot → ¬next.IsLogical))

variable {t t' : Token} {tokens tokens' : List Token}

/-- Only logical operators have two spellings. -/
theorem eq_of_keyword_eq (same : t.keyword = t'.keyword) (h : ¬t'.IsLogical) : t = t' := by
  have plain : ∀ s : Token, ¬s.IsLogical → s.keyword = s := by
    intro s h
    cases s <;> first | rfl | exact absurd (by decide) h
  have other : ¬t.IsLogical := by
    rw [IsLogical, same]
    exact h
  rw [← plain t other, same, plain t' h]

theorem eq_of_map_keyword_eq (same : tokens.map keyword = tokens'.map keyword)
    (h : ∀ t ∈ tokens', ¬t.IsLogical) : tokens = tokens' := by
  induction tokens' generalizing tokens with
  | nil => exact List.map_eq_nil_iff.mp same
  | cons t' tokens' ih =>
    obtain ⟨t, rest, rfl, first_eq, rest_eq⟩ := List.map_eq_cons_iff.mp same
    obtain ⟨first, further⟩ := List.forall_mem_cons.mp h
    rw [eq_of_keyword_eq first_eq first, ih rest_eq further]

theorem length_eq_of_map_keyword_eq (same : tokens.map keyword = tokens'.map keyword) :
    tokens.length = tokens'.length := by
  rw [← List.length_map keyword, same, List.length_map]

/-- What stands in parentheses can be respelled, the parentheses cannot. -/
theorem exists_enclosed {lead inner : List Token} (h : ∀ t ∈ lead, ¬t.IsLogical)
    (same : tokens.map keyword = (lead ++ (inner ++ [Token.rightParen])).map keyword) :
    ∃ body, tokens = lead ++ (body ++ [.rightParen]) ∧ body.map keyword = inner.map keyword := by
  rw [List.map_append, List.map_append] at same
  obtain ⟨start, rest, rfl, start_eq, rest_eq⟩ := List.map_eq_append_iff.mp same
  obtain ⟨body, last, rfl, body_eq, last_eq⟩ := List.map_eq_append_iff.mp rest_eq
  rw [eq_of_map_keyword_eq start_eq h, eq_of_map_keyword_eq last_eq (by decide)]
  exact ⟨body, rfl, body_eq⟩

theorem undotted_of_keyword_eq (same : tokens.map keyword = tokens'.map keyword)
    (h : Undotted tokens) : Undotted tokens' := by
  have undotted_iff : ∀ list : List Token, Undotted list ↔ (list.map keyword).IsChain
      fun t next ↦ t = .dot → next ∉ [.word "and", .word "or", .word "not"] := by
    intro list
    have dot_iff : ∀ t : Token, t = .dot ↔ t.keyword = .dot := by
      intro t
      cases t <;> simp [keyword]
    rw [List.isChain_map]
    exact List.IsChain.iff fun t next ↦ imp_congr_left (dot_iff t)
  rw [undotted_iff, ← same, ← undotted_iff]
  exact h

end Token

open Token

namespace Grammar

variable {level : Level} {sign t : Token} {tokens : List Token}

theorem Joins.of_keyword_eq {op : BinaryOp} (h : Joins level op sign)
    (same : t.keyword = sign.keyword) : Joins level op t := by
  cases h <;> cases t <;> simp [keyword] at same <;> subst_vars <;> constructor

theorem Applies.of_keyword_eq {op : UnaryOp} (h : Applies level op sign)
    (same : t.keyword = sign.keyword) : Applies level op t := by
  cases h <;> cases t <;> simp [keyword] at same <;> subst_vars <;> constructor

theorem IsName.not_isLogical {w : String} (h : IsName w) : ¬(Token.word w).IsLogical := by
  obtain ⟨hand, hor, hnot, -⟩ := h
  simp [IsLogical, keyword, hand, hor, hnot]

theorem dotted_of_keyword_eq {properties : List String}
    (same : tokens.map keyword = (dotted properties).map keyword) (h : Undotted tokens) :
    tokens = dotted properties := by
  induction properties generalizing tokens with
  | nil => exact List.map_eq_nil_iff.mp same
  | cons property properties ih =>
    obtain ⟨t, further, rfl, dot_eq, further_eq⟩ := List.map_eq_cons_iff.mp same
    obtain ⟨t', rest, rfl, word_eq, rest_eq⟩ := List.map_eq_cons_iff.mp further_eq
    obtain rfl := eq_of_keyword_eq dot_eq (by decide)
    obtain ⟨follows, undotted⟩ := List.isChain_cons_cons.mp h
    rw [← eq_of_keyword_eq word_eq.symm (follows rfl), ih rest_eq undotted.of_cons, dotted_cons]

end Grammar

mutual

/-- The operators in a phrase can be respelled. -/
theorem Phrase.exists_respelled : {level : Level} → (p : Phrase level) → {tokens : List Token} →
    tokens.map keyword = p.tokens.map keyword → Undotted tokens →
      ∃ q : Phrase level, q.tokens = tokens ∧ q.treeAt = p.treeAt ∧ q.nesting = p.nesting
  | _, .chain shape first more, tokens, same, undotted => by
    rw [Phrase.tokens, List.map_append] at same
    obtain ⟨start, rest, rfl, start_eq, rest_eq⟩ := List.map_eq_append_iff.mp same
    have length_eq := length_eq_of_map_keyword_eq start_eq
    obtain ⟨q, rfl, tree_eq, nesting_eq⟩ :=
      first.exists_respelled start_eq undotted.left_of_append
    obtain ⟨links, rfl, tree_eq', nesting_eq'⟩ :=
      more.exists_respelled rest_eq undotted.right_of_append
    refine ⟨.chain shape q links, rfl, funext fun offsets ↦ ?_, ?_⟩
    · rw [Phrase.treeAt, Phrase.treeAt, tree_eq, tree_eq', length_eq]
    · rw [Phrase.nesting, Phrase.nesting, nesting_eq, nesting_eq']
  | _, .applied op sign spelled operand, tokens, same, undotted => by
    obtain ⟨t, rest, rfl, sign_eq, rest_eq⟩ := List.map_eq_cons_iff.mp same
    obtain ⟨q, rfl, tree_eq, nesting_eq⟩ := operand.exists_respelled rest_eq undotted.of_cons
    refine ⟨.applied op t (spelled.of_keyword_eq sign_eq) q, rfl, funext fun offsets ↦ ?_, ?_⟩
    · rw [Phrase.treeAt, Phrase.treeAt, tree_eq]
    · rw [Phrase.nesting, Phrase.nesting, nesting_eq]
  | _, .plain shape operand, tokens, same, undotted => by
    obtain ⟨q, rfl, tree_eq, nesting_eq⟩ := operand.exists_respelled same undotted
    exact ⟨.plain shape q, rfl, funext fun offsets ↦ congrFun tree_eq offsets, nesting_eq⟩
  | _, .single only, tokens, same, undotted => by
    obtain ⟨q, rfl, tree_eq, nesting_eq⟩ := only.exists_respelled same undotted
    exact ⟨.single q, rfl, funext fun offsets ↦ congrFun tree_eq offsets, nesting_eq⟩
  | _, .compared left op sign spelled right, tokens, same, undotted => by
    rw [Phrase.tokens, List.map_append] at same
    obtain ⟨start, further, rfl, start_eq, further_eq⟩ := List.map_eq_append_iff.mp same
    obtain ⟨t, rest, rfl, sign_eq, rest_eq⟩ := List.map_eq_cons_iff.mp further_eq
    have length_eq := length_eq_of_map_keyword_eq start_eq
    obtain ⟨l, rfl, tree_eq, nesting_eq⟩ :=
      left.exists_respelled start_eq undotted.left_of_append
    obtain ⟨r, rfl, tree_eq', nesting_eq'⟩ :=
      right.exists_respelled rest_eq undotted.right_of_append.of_cons
    refine ⟨.compared l op t (spelled.of_keyword_eq sign_eq) r, rfl, funext fun offsets ↦ ?_, ?_⟩
    · rw [Phrase.treeAt, Phrase.treeAt, tree_eq, tree_eq', length_eq]
    · rw [Phrase.nesting, Phrase.nesting, nesting_eq, nesting_eq']
  | _, .number digits, _, same, _ => by
    obtain rfl := eq_of_map_keyword_eq same (by simp [Phrase.tokens, IsLogical, keyword])
    exact ⟨.number digits, rfl, rfl, rfl⟩
  | _, .text content, _, same, _ => by
    obtain rfl := eq_of_map_keyword_eq same (by simp [Phrase.tokens, IsLogical, keyword])
    exact ⟨.text content, rfl, rfl, rfl⟩
  | _, .truth value, _, same, _ => by
    obtain rfl := eq_of_map_keyword_eq same (by cases value <;> decide)
    exact ⟨.truth value, rfl, rfl, rfl⟩
  | _, .group inner, tokens, same, undotted => by
    have plain : ∀ t ∈ [Token.leftParen], ¬t.IsLogical := by decide
    obtain ⟨body, rfl, body_eq⟩ := exists_enclosed plain same
    obtain ⟨q, rfl, tree_eq, nesting_eq⟩ :=
      inner.exists_respelled body_eq undotted.right_of_append.left_of_append
    refine ⟨.group q, rfl, funext fun offsets ↦ ?_, ?_⟩
    · rw [Phrase.treeAt, Phrase.treeAt, tree_eq]
    · rw [Phrase.nesting, Phrase.nesting, nesting_eq]
  | _, .name first isName properties, tokens, same, undotted => by
    obtain ⟨t, rest, rfl, first_eq, rest_eq⟩ := List.map_eq_cons_iff.mp same
    obtain rfl := eq_of_keyword_eq first_eq isName.not_isLogical
    obtain rfl := dotted_of_keyword_eq rest_eq undotted.of_cons
    exact ⟨.name first isName properties, rfl, rfl, rfl⟩
  | _, .call function isName, _, same, _ => by
    obtain rfl := eq_of_map_keyword_eq same
      (List.forall_mem_cons.mpr ⟨isName.not_isLogical, by decide⟩)
    exact ⟨.call function isName, rfl, rfl, rfl⟩
  | _, .callWith function isName arguments, tokens, same, undotted => by
    have plain : ∀ t ∈ [Token.word function, .leftParen], ¬t.IsLogical :=
      List.forall_mem_cons.mpr ⟨isName.not_isLogical, by decide⟩
    obtain ⟨body, rfl, body_eq⟩ := exists_enclosed plain same
    obtain ⟨arguments', rfl, trees_eq, nesting_eq⟩ :=
      arguments.exists_respelled body_eq undotted.right_of_append.left_of_append
    refine ⟨.callWith function isName arguments', rfl, funext fun offsets ↦ ?_, ?_⟩
    · rw [Phrase.treeAt, Phrase.treeAt, trees_eq]
    · rw [Phrase.nesting, Phrase.nesting, nesting_eq]

theorem Links.exists_respelled : {level inner : Level} → (links : Links level inner) →
    {tokens : List Token} → tokens.map keyword = links.tokens.map keyword → Undotted tokens →
      ∃ links' : Links level inner, links'.tokens = tokens ∧ links'.treeAt = links.treeAt ∧
        links'.nesting = links.nesting
  | _, _, .done, tokens, same, _ => by
    obtain rfl := List.map_eq_nil_iff.mp same
    exact ⟨.done, rfl, rfl, rfl⟩
  | _, _, .link op sign spelled operand more, tokens, same, undotted => by
    rw [Links.tokens, List.map_cons, List.map_append] at same
    obtain ⟨t, further, rfl, sign_eq, further_eq⟩ := List.map_eq_cons_iff.mp same
    obtain ⟨start, rest, rfl, start_eq, rest_eq⟩ := List.map_eq_append_iff.mp further_eq
    have length_eq := length_eq_of_map_keyword_eq start_eq
    obtain ⟨q, rfl, tree_eq, nesting_eq⟩ :=
      operand.exists_respelled start_eq undotted.of_cons.left_of_append
    obtain ⟨links, rfl, tree_eq', nesting_eq'⟩ :=
      more.exists_respelled rest_eq undotted.of_cons.right_of_append
    refine ⟨.link op t (spelled.of_keyword_eq sign_eq) q links, rfl, ?_, ?_⟩
    · funext left offsets
      rw [Links.treeAt, Links.treeAt, tree_eq, tree_eq', length_eq]
    · rw [Links.nesting, Links.nesting, nesting_eq, nesting_eq']

theorem Arguments.exists_respelled : (arguments : Arguments) → {tokens : List Token} →
    tokens.map keyword = arguments.tokens.map keyword → Undotted tokens →
      ∃ arguments' : Arguments, arguments'.tokens = tokens ∧
        arguments'.treesAt = arguments.treesAt ∧ arguments'.nesting = arguments.nesting
  | .last argument, tokens, same, undotted => by
    obtain ⟨q, rfl, tree_eq, nesting_eq⟩ := argument.exists_respelled same undotted
    refine ⟨.last q, rfl, funext fun offsets ↦ ?_, nesting_eq⟩
    rw [Arguments.treesAt, Arguments.treesAt, tree_eq]
  | .cons argument more, tokens, same, undotted => by
    rw [Arguments.tokens, List.map_append] at same
    obtain ⟨start, further, rfl, start_eq, further_eq⟩ := List.map_eq_append_iff.mp same
    obtain ⟨t, rest, rfl, comma_eq, rest_eq⟩ := List.map_eq_cons_iff.mp further_eq
    obtain rfl := eq_of_keyword_eq comma_eq (by decide)
    have length_eq := length_eq_of_map_keyword_eq start_eq
    obtain ⟨q, rfl, tree_eq, nesting_eq⟩ :=
      argument.exists_respelled start_eq undotted.left_of_append
    obtain ⟨arguments, rfl, trees_eq, nesting_eq'⟩ :=
      more.exists_respelled rest_eq undotted.right_of_append.of_cons
    refine ⟨.cons q arguments, rfl, funext fun offsets ↦ ?_, ?_⟩
    · rw [Arguments.treesAt, Arguments.treesAt, tree_eq, trees_eq, length_eq]
    · rw [Arguments.nesting, Arguments.nesting, nesting_eq, nesting_eq']

end

/-- Two lists have the same tokens at the same places, but for the spelling of logical operators. -/
structure TokenList.Respelled (list list' : TokenList) : Prop where
  keywords : list.tokens.map (·.token.keyword) = list'.tokens.map (·.token.keyword)
  offsets : list.tokens.map PlacedToken.offset = list'.tokens.map PlacedToken.offset

namespace TokenList.Respelled

variable {list list' : TokenList}

theorem symm (h : list.Respelled list') : list'.Respelled list := ⟨h.keywords.symm, h.offsets.symm⟩

theorem tokens_eq (h : list.Respelled list') :
    (list.tokens.map PlacedToken.token).map keyword =
      (list'.tokens.map PlacedToken.token).map keyword := by
  rw [List.map_map, List.map_map]
  exact h.keywords

end TokenList.Respelled

namespace Expr

variable {list list' : TokenList}

theorem ofTokens_eq_ok_of_respelled {e : Expr} (respelled : list.Respelled list')
    (undotted : Undotted (list'.tokens.map PlacedToken.token)) (h : ofTokens list = .ok e) :
    ofTokens list' = .ok e := by
  obtain ⟨p, spelt, rfl⟩ := ofTokens_placed h
  have same := respelled.symm.tokens_eq
  rw [← spelt] at same
  obtain ⟨q, spelt', tree_eq, nesting_eq⟩ := p.exists_respelled same undotted
  have same_tree : q.tree = p.tree := by rw [← q.forget_treeAt [], tree_eq, p.forget_treeAt]
  obtain ⟨fits, -⟩ := (ofTokens_eq_ok_iff spelt).mp h
  rw [ofTokens_eq_ok_iff spelt', nesting_eq, same_tree, tree_eq, respelled.offsets]
  exact ⟨fits, rfl⟩

/-- Where no logical operator follows a dot, it makes no difference to the expression, to its
offsets or to its variables which operators are written as signs and which as keywords. -/
theorem ofTokens_of_respelled (list list' : TokenList) (respelled : list.Respelled list')
    (undotted : Undotted (list.tokens.map PlacedToken.token)) :
    (ofTokens list).toOption.map (fun e ↦ (e, e.variableNames)) =
      (ofTokens list').toOption.map fun e ↦ (e, e.variableNames) := by
  have undotted' := undotted_of_keyword_eq respelled.tokens_eq undotted
  have same : (ofTokens list).toOption = (ofTokens list').toOption := by
    cases made : ofTokens list with
    | ok e => rw [ofTokens_eq_ok_of_respelled respelled undotted' made]
    | error fault =>
      cases made' : ofTokens list' with
      | ok e =>
        rw [ofTokens_eq_ok_of_respelled respelled.symm undotted made'] at made
        cases made
      | error fault' => rfl
  rw [same]

/-- Each spelling of each operator, and a property that is named like none of them. -/
theorem ofTokens_of_respelled_mixed :
    (ofTokens ⟨[⟨.not, 0⟩, ⟨.word "a", 4⟩, ⟨.word "and", 6⟩, ⟨.not, 10⟩, ⟨.word "b", 14⟩,
        ⟨.dot, 15⟩, ⟨.word "true", 16⟩, ⟨.or, 21⟩, ⟨.word "c", 24⟩], 25⟩).toOption.map
          variableNames = some ["a", "b.true", "c"] ∧
    (ofTokens ⟨[⟨.not, 0⟩, ⟨.word "a", 4⟩, ⟨.word "and", 6⟩, ⟨.not, 10⟩, ⟨.word "b", 14⟩,
        ⟨.dot, 15⟩, ⟨.word "true", 16⟩, ⟨.or, 21⟩, ⟨.word "c", 24⟩], 25⟩).toOption.map
          (fun e ↦ (e, e.variableNames)) =
      (ofTokens ⟨[⟨.word "not", 0⟩, ⟨.word "a", 4⟩, ⟨.and, 6⟩, ⟨.not, 10⟩, ⟨.word "b", 14⟩,
        ⟨.dot, 15⟩, ⟨.word "true", 16⟩, ⟨.word "or", 21⟩, ⟨.word "c", 24⟩], 25⟩).toOption.map
          fun e ↦ (e, e.variableNames) :=
  ⟨by decide +kernel, ofTokens_of_respelled _ _ ⟨by decide, by decide⟩ (by decide)⟩

end Expr

end FormRules
