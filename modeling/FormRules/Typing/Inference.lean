import FormRules.Typing.ValueType

/-!
# Inferences

A type together with how far it can be trusted. The confidences form a chain, and a result that
rests on several others is as confident as the weakest of them.
-/

namespace FormRules

/-- How far an inferred type can be trusted. -/
inductive Confidence where
  | unknown
  /-- Follows from the rules of the form. -/
  | inferred
  /-- Follows from the expression or from a declared field alone. -/
  | certain
deriving DecidableEq, Repr, Inhabited

namespace Confidence

/-- The place in the chain from the weakest on. -/
def rank : Confidence → Nat
  | .unknown => 0
  | .inferred => 1
  | .certain => 2

def weaker (a b : Confidence) : Confidence := if a.rank ≤ b.rank then a else b

def name : Confidence → String
  | .unknown => "unknown"
  | .inferred => "inferred"
  | .certain => "certain"

def ofName? (name : String) : Option Confidence :=
  [unknown, inferred, certain].find? fun confidence ↦ confidence.name = name

theorem rank_weaker (a b : Confidence) : (weaker a b).rank = min a.rank b.rank := by
  cases a <;> cases b <;> rfl

end Confidence

structure Inference where
  type : ValueType
  confidence : Confidence
deriving DecidableEq, Repr, Inhabited

namespace Inference

/-- Nothing could be inferred. -/
def unknown : Inference := ⟨.unknown, .unknown⟩

def certain (type : ValueType) : Inference := ⟨type, .certain⟩

def inferred (type : ValueType) : Inference := ⟨type, .inferred⟩

/-- Whether an inference says anything that a check can rely on. -/
def isConfident (i : Inference) : Bool := i.type ≠ .unknown && i.confidence ≠ .unknown

end Inference

end FormRules
