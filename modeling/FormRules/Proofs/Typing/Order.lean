import FormRules.Proofs.Scope.Agreement

/-!
# Knowing more

One inference tells no more than another if its type is unknown or the same and it is trusted no
further. Every operator respects this order, so from an environment that tells more of its variables
no less is inferred. What there is to rely on stays as it is: a known type never changes.
-/

namespace FormRules

namespace Inference

theorem ne_unknown_of_isNumeric {type : ValueType} (numeric : type.isNumeric = true) :
    type ≠ .unknown := by
  rintro rfl
  cases numeric

/-- An arithmetic operator tells nothing of an operand of which the type is unknown. -/
theorem binary_eq_unknown {op : BinaryOp} {left right : Inference}
    (arithmetic : ¬op.isLogical = true) (h : left.type = .unknown ∨ right.type = .unknown) :
    binary op left right = .unknown := by
  rcases h with untyped | untyped <;>
    simp [binary, arithmetic, untyped, ValueType.isNumeric]

/-- One inference tells no more than another. -/
structure Below (i j : Inference) : Prop where
  type : i.type = .unknown ∨ i.type = j.type
  confidence : i.confidence.rank ≤ j.confidence.rank

variable {i j left left' right right' : Inference}

theorem below_refl (i : Inference) : i.Below i := ⟨.inr rfl, Nat.le_refl _⟩

theorem unknown_below (i : Inference) : unknown.Below i := ⟨.inl rfl, Nat.zero_le _⟩

theorem eq_unknown_of_below (h : i.Below unknown) : i = unknown := by
  obtain ⟨type, confidence⟩ := i
  have untyped : type = .unknown := h.type.elim id id
  have distrusted : confidence.rank ≤ 0 := h.confidence
  subst untyped
  cases confidence with
  | unknown => rfl
  | inferred | certain => cases distrusted

namespace Below

theorem type_eq (h : i.Below j) (known : i.type ≠ .unknown) : j.type = i.type :=
  (h.type.resolve_left known).symm

/-- Where one inference can be relied on, one that tells more can be too, and says the same. -/
theorem isConfident (h : i.Below j) (confident : i.isConfident = true) :
    j.isConfident = true ∧ j.type = i.type := by
  simp only [Inference.isConfident, Bool.and_eq_true, decide_eq_true_eq] at confident ⊢
  obtain ⟨known, trusted⟩ := confident
  have same := h.type_eq known
  refine ⟨⟨?_, ?_⟩, same⟩
  · rwa [same]
  · intro distrusted
    have ranks := h.confidence
    rw [distrusted] at ranks
    apply trusted
    cases confidence : i.confidence with
    | unknown => rfl
    | inferred | certain =>
      rw [confidence] at ranks
      cases ranks

theorem weaker (h : left.Below left') (h' : right.Below right') :
    (left.confidence.weaker right.confidence).rank ≤
      (left'.confidence.weaker right'.confidence).rank := by
  rw [Confidence.rank_weaker, Confidence.rank_weaker]
  have := h.confidence
  have := h'.confidence
  omega

/-! ## Operators -/

theorem unary (op : UnaryOp) (h : i.Below j) :
    (Inference.unary op i).Below (Inference.unary op j) := by
  cases op with
  | not => exact ⟨.inr rfl, h.confidence⟩
  | negate =>
    by_cases numeric : i.type.isNumeric = true
    · have same := h.type_eq (ne_unknown_of_isNumeric numeric)
      rw [Inference.unary, Inference.unary, same, if_pos numeric, if_pos numeric]
      exact h
    · have nothing : Inference.unary .negate i = .unknown := if_neg numeric
      rw [nothing]
      apply unknown_below

theorem binary (op : BinaryOp) (h : left.Below left') (h' : right.Below right') :
    (Inference.binary op left right).Below (Inference.binary op left' right') := by
  have confidence := h.weaker h'
  by_cases logical : op.isLogical = true
  · rw [Inference.binary, if_pos logical, Inference.binary, if_pos logical]
    exact ⟨.inr rfl, confidence⟩
  · by_cases nothing : left.type = .unknown ∨ right.type = .unknown
    · rw [binary_eq_unknown logical nothing]
      apply unknown_below
    · -- Both types are known, so the operator meets the same types in the other environment.
      obtain ⟨on_left, on_right⟩ := not_or.mp nothing
      unfold Inference.binary
      rw [h.type_eq on_left, h'.type_eq on_right]
      split
      · exact ⟨.inr rfl, confidence⟩
      · split
        · exact ⟨.inr rfl, confidence⟩
        · split
          · exact ⟨.inr rfl, confidence⟩
          · apply below_refl

end Below

end Inference

namespace Environment

/-- One environment tells no more of any variable than another with the same functions. A variable
that is out of scope is one of which nothing is known. -/
structure Below (env env' : Environment) : Prop where
  functions : env.functions = env'.functions
  known : ∀ name, (env.known name).Below (env'.known name)

theorem Below.function? {env env' : Environment} (h : env.Below env') (name : String) :
    env.function? name = env'.function? name := by
  have agree : Agree [] env env' := ⟨h.functions, fun _ member ↦ nomatch member⟩
  exact agree.function? name

/-- A variable goes out of scope only if nothing was known of it. -/
theorem Below.get?_eq_unknown {env env' : Environment} (h : env.Below env') {name : String}
    (inside : env.knows name = true) (outside : env'.knows name = false) :
    env.get? name = some .unknown ∧ env'.get? name = none := by
  unfold knows at inside outside
  rw [Bool.or_eq_false_iff] at outside
  rw [h.function?, outside.2, Bool.or_false] at inside
  have absent : env'.get? name = none :=
    Option.isNone_iff_eq_none.mp (Option.isSome_eq_false_iff.mp outside.1)
  obtain ⟨inference, present⟩ : ∃ inference, env.get? name = some inference :=
    Option.isSome_iff_exists.mp inside
  have below := h.known name
  rw [Environment.known, Environment.known, present, absent] at below
  have untold : inference = .unknown := Inference.eq_unknown_of_below below
  exact ⟨untold ▸ present, absent⟩

end Environment

/-- From an environment that tells more of the variables no less is inferred. -/
theorem Expr.infer_below {env env' : Environment} (h : env.Below env') : ∀ e : Expr,
    (e.infer env).Below (e.infer env')
  | .literal value _ => Inference.below_refl (.certain value.type)
  | .reference name _ => h.known name
  | .call name arguments _ => by
    rw [infer, infer, h.function?]
    apply Inference.below_refl
  | .unary op operand _ => (infer_below h operand).unary op
  | .binary op left right _ => by
    rw [infer, infer]
    split
    · apply Inference.below_refl
    · exact (infer_below h left).binary op (infer_below h right)

end FormRules
