import FormRules.Typing.Infer

/-!
# The weakest link

The confidence in an expression is passed up from the literals, variables, calls and comparisons
that its other operators join, and it is that of the weakest of them. Only an operator that tells
nothing of its own type breaks this, and then nothing above it has any confidence.
-/

namespace FormRules

theorem Confidence.unknown_weaker (c : Confidence) : Confidence.unknown.weaker c = .unknown := by
  cases c <;> rfl

theorem Confidence.weaker_unknown (c : Confidence) : c.weaker .unknown = .unknown := by
  cases c <;> rfl

namespace Inference

/-- A prefix operator passes on the confidence in its operand or tells nothing. -/
theorem confidence_unary (op : UnaryOp) (operand : Inference) :
    (unary op operand).confidence = operand.confidence ∨ unary op operand = unknown := by
  cases op with
  | not => exact .inl rfl
  | negate =>
    by_cases numeric : operand.type.isNumeric = true
    · rw [unary, if_pos numeric]
      exact .inl rfl
    · exact .inr (if_neg numeric)

/-- An operator passes on the weaker confidence in its operands or tells nothing. -/
theorem confidence_binary (op : BinaryOp) (left right : Inference) :
    (binary op left right).confidence = left.confidence.weaker right.confidence ∨
      binary op left right = unknown := by
  unfold binary
  dsimp only
  split
  · exact .inl rfl
  · split
    · exact .inl rfl
    · split
      · exact .inl rfl
      · exact .inr rfl

end Inference

namespace Expr

/-- An expression is inferred from another: from itself, or from what its operands are inferred
from. A comparison is a condition whatever it compares, so it is not inferred from its operands, and
neither is a call from its arguments. -/
inductive RestsOn : Expr → Expr → Prop
  | self {e : Expr} : RestsOn e e
  | operand {op : UnaryOp} {operand part : Expr} {offset : Nat} :
    RestsOn operand part → RestsOn (.unary op operand offset) part
  | left {op : BinaryOp} {left right part : Expr} {offset : Nat} :
    op.isComparison = false → RestsOn left part → RestsOn (.binary op left right offset) part
  | right {op : BinaryOp} {left right part : Expr} {offset : Nat} :
    op.isComparison = false → RestsOn right part → RestsOn (.binary op left right offset) part

/-- Literals, variables, comparisons and calls are inferred from nothing but themselves. -/
def isSource : Expr → Bool
  | .literal _ _ | .reference _ _ | .call _ _ _ => true
  | .unary _ _ _ => false
  | .binary op _ _ _ => op.isComparison

/-- The least confidence that there is in a source which an expression rests on. -/
structure IsWeakest (env : Environment) (e : Expr) (confidence : Confidence) : Prop where
  attained : ∃ source, e.RestsOn source ∧ source.isSource = true ∧
    (source.infer env).confidence = confidence
  least : ∀ source, e.RestsOn source → source.isSource = true →
    confidence.rank ≤ (source.infer env).confidence.rank

variable {env : Environment} {e part left right : Expr} {offset : Nat}

theorem RestsOn.eq_of_isSource (h : e.RestsOn part) (source : e.isSource = true) : part = e := by
  cases h with
  | self => rfl
  | operand => cases source
  | left apart => cases apart.symm.trans source
  | right apart => cases apart.symm.trans source

theorem isWeakest_of_isSource (source : e.isSource = true) :
    IsWeakest env e (e.infer env).confidence := by
  refine ⟨⟨e, .self, source, rfl⟩, ?_⟩
  intro other rests _
  apply Nat.le_of_eq
  rw [rests.eq_of_isSource source]

theorem IsWeakest.unary {confidence : Confidence} (op : UnaryOp)
    (h : IsWeakest env e confidence) : IsWeakest env (.unary op e offset) confidence := by
  obtain ⟨source, rests, isSource, attained⟩ := h.attained
  refine ⟨⟨source, .operand rests, isSource, attained⟩, ?_⟩
  intro other rests' isSource'
  cases rests' with
  | self => cases isSource'
  | operand inner => exact h.least other inner isSource'

theorem IsWeakest.binary {op : BinaryOp} {confidence confidence' : Confidence}
    (joins : op.isComparison = false) (h : IsWeakest env left confidence)
    (h' : IsWeakest env right confidence') :
    IsWeakest env (.binary op left right offset) (confidence.weaker confidence') := by
  have least_eq := Confidence.rank_weaker confidence confidence'
  constructor
  · by_cases weaker : confidence.rank ≤ confidence'.rank
    · obtain ⟨source, rests, isSource, attained⟩ := h.attained
      refine ⟨source, .left joins rests, isSource, ?_⟩
      rw [attained, Confidence.weaker, if_pos weaker]
    · obtain ⟨source, rests, isSource, attained⟩ := h'.attained
      refine ⟨source, .right joins rests, isSource, ?_⟩
      rw [attained, Confidence.weaker, if_neg weaker]
  · intro source rests isSource
    rw [least_eq]
    cases rests with
    | self => cases joins.symm.trans isSource
    | left _ inner => exact Nat.le_trans (Nat.min_le_left _ _) (h.least source inner isSource)
    | right _ inner => exact Nat.le_trans (Nat.min_le_right _ _) (h'.least source inner isSource)

/-- An operator that an expression rests on tells nothing. -/
def Abstains (env : Environment) (e : Expr) : Prop :=
  ∃ part, e.RestsOn part ∧ part.isSource = false ∧ part.infer env = .unknown

theorem Abstains.of_infer (source : e.isSource = false) (h : e.infer env = .unknown) :
    Abstains env e :=
  ⟨e, .self, source, h⟩

theorem Abstains.imp {above : Expr} (h : Abstains env e)
    (rests : ∀ part, e.RestsOn part → above.RestsOn part) : Abstains env above := by
  obtain ⟨part, below, source, abstains⟩ := h
  exact ⟨part, rests part below, source, abstains⟩

/-- The confidence in an expression is exactly that of its weakest source, or there is none because
an operator on the way to its sources tells nothing. -/
theorem confidence_exact (env : Environment) : ∀ e : Expr,
    IsWeakest env e (e.infer env).confidence ∨
      (e.infer env).confidence = .unknown ∧ Abstains env e
  | .literal _ _ | .reference _ _ | .call _ _ _ => .inl (isWeakest_of_isSource rfl)
  | .unary op operand offset => by
    have below := confidence_exact env operand
    rw [infer]
    rcases Inference.confidence_unary op (operand.infer env) with passes | abstains
    · rw [passes]
      rcases below with weakest | ⟨nothing, abstains⟩
      · exact .inl (weakest.unary op)
      · exact .inr ⟨nothing, abstains.imp fun _ ↦ .operand⟩
    · rw [abstains]
      exact .inr ⟨rfl, .of_infer rfl abstains⟩
  | .binary op left right offset => by
    by_cases compares : op.isComparison = true
    · exact .inl (isWeakest_of_isSource compares)
    · have joins : op.isComparison = false := eq_false_of_ne_true compares
      have on_left := confidence_exact env left
      have on_right := confidence_exact env right
      have inferred : (Expr.binary op left right offset).infer env =
          .binary op (left.infer env) (right.infer env) := by
        rw [infer, if_neg compares]
      rw [inferred]
      rcases Inference.confidence_binary op (left.infer env) (right.infer env) with
        passes | abstains
      · rw [passes]
        rcases on_left with weakest | ⟨nothing, abstains⟩
        · rcases on_right with weakest' | ⟨nothing, abstains⟩
          · exact .inl (weakest.binary joins weakest')
          · rw [nothing, Confidence.weaker_unknown]
            exact .inr ⟨rfl, abstains.imp fun _ ↦ .right joins⟩
        · rw [nothing, Confidence.unknown_weaker]
          exact .inr ⟨rfl, abstains.imp fun _ ↦ .left joins⟩
      · rw [abstains]
        exact .inr ⟨rfl, .of_infer joins (inferred.trans abstains)⟩

end Expr

end FormRules
