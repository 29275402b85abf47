import FormRules.Proofs.Expr.Grammar

/-!
# The parser's tables and the grammar

The forms, operators and reserved words that the parser looks up are those of the grammar, and the
words that it takes for a dotted name are the properties of one.
-/

namespace FormRules

namespace Grammar

variable {level inner : Level} {t : Token} {w : String}

theorem Chained.of_form (h : level.form = .chain) : Chained level level.tighter := by
  cases level <;> first | constructor | cases h

theorem Prefixed.of_form (h : level.form = .prefixed) : Prefixed level level.tighter := by
  cases level <;> first | constructor | cases h

theorem Chained.form (h : Chained level inner) : level.form = .chain := by
  cases h <;> rfl

theorem Chained.tighter (h : Chained level inner) : level.tighter = inner := by
  cases h <;> rfl

theorem Prefixed.form (h : Prefixed level inner) : level.form = .prefixed := by
  cases h <;> rfl

theorem Prefixed.tighter (h : Prefixed level inner) : level.tighter = inner := by
  cases h <;> rfl

theorem joins_iff {op : BinaryOp} : Joins level op t ↔ level.binary? t = some op := by
  constructor
  · intro h
    cases h <;> rfl
  · intro h
    unfold Level.binary? at h
    split at h
    all_goals
      first
      | (cases h; constructor)
      | (split at h; (· subst_vars; cases h; constructor); (· cases h))
      | cases h

theorem applies_iff {op : UnaryOp} : Applies level op t ↔ level.unary? t = some op := by
  constructor
  · intro h
    cases h <;> rfl
  · intro h
    unfold Level.unary? at h
    split at h
    all_goals
      first
      | (cases h; constructor)
      | (split at h; (· subst_vars; cases h; constructor); (· cases h))
      | cases h

theorem isName_iff : IsName w ↔ w ∉ reservedWords := by
  simp [IsName, reservedWords]

end Grammar

open Grammar

namespace Cursor

/-- The tokens that have not been taken, without their offsets. -/
def tokens (s : Cursor) : List Token := s.rest.map PlacedToken.token

variable {s : Cursor} {t : Token} {tail : List Token}

theorem tokens_goto (s : Cursor) (rest : List PlacedToken) :
    (s.goto rest).tokens = rest.map PlacedToken.token := rfl

theorem depth_goto (s : Cursor) (rest : List PlacedToken) : (s.goto rest).depth = s.depth := rfl

theorem tokens_of_rest {placed : PlacedToken} {rest : List PlacedToken}
    (h : s.rest = placed :: rest) : s.tokens = placed.token :: (s.goto rest).tokens := by
  rw [tokens, h, List.map_cons, tokens_goto]

theorem peek_eq_head? (s : Cursor) : s.peek = s.tokens.head? := by
  rw [peek, tokens, List.head?_map]

theorem exists_rest (h : s.tokens = t :: tail) :
    ∃ offset rest, s.rest = ⟨t, offset⟩ :: rest ∧ (s.goto rest).tokens = tail := by
  obtain ⟨⟨_, offset⟩, rest, e, rfl, tail_eq⟩ := List.map_eq_cons_iff.mp h
  exact ⟨offset, rest, e, tail_eq⟩

end Cursor

namespace Expr

theorem dottedName_sound {name path : String} {before after : List PlacedToken}
    (h : dottedName name before = .ok (path, after)) :
    ∃ properties taken, before = taken ++ after ∧
      taken.map PlacedToken.token = dotted properties ∧
        path = ".".intercalate (name :: properties) := by
  fun_induction dottedName name before with
  | case1 name dot w offset rest ih =>
    obtain ⟨properties, taken, rfl, tokens_eq, path_eq⟩ := ih h
    refine ⟨w :: properties, ⟨.dot, dot⟩ :: ⟨.word w, offset⟩ :: taken, rfl, ?_, path_eq⟩
    rw [List.map_cons, List.map_cons, tokens_eq, dotted_cons]
  | case2 => cases h
  | case3 =>
    cases h
    exact ⟨[], [], rfl, rfl, rfl⟩

theorem dottedName_complete (name : String) {properties : List String}
    {before : List PlacedToken} {rest : List Token}
    (h : before.map PlacedToken.token = dotted properties ++ rest)
    (stops : ∀ t ∈ rest.head?, t ≠ .dot) :
    ∃ path after, dottedName name before = .ok (path, after) ∧
      after.map PlacedToken.token = rest := by
  induction properties generalizing name before with
  | nil =>
    refine ⟨name, before, ?_, h⟩
    rw [dottedName.eq_3]
    all_goals
      rintro offset
      intros
      subst before
      exact stops .dot (by rw [← List.nil_append rest, ← dotted_nil, ← h]; rfl) rfl
  | cons property properties ih =>
    rw [dotted_cons, List.cons_append, List.cons_append] at h
    obtain ⟨⟨_, _⟩, more, rfl, rfl, h₁⟩ := List.map_eq_cons_iff.mp h
    obtain ⟨⟨_, _⟩, after, rfl, rfl, h₂⟩ := List.map_eq_cons_iff.mp h₁
    rw [dottedName]
    exact ih _ h₂

end Expr

end FormRules
