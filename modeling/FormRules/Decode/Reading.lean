import FormRules.Decode.Fault

/-!
# Readings

The members of a record may be written in any order, and of several faults the one that stands
first in the data is reported. A reading therefore keeps the place of its fault, and putting two
readings together keeps the fault with the lesser place.
-/

namespace FormRules.Decode

/-- The outcome of reading a part of a record. -/
inductive Reading (α : Type) where
  | ok (value : α)
  | failed (place : Nat) (fault : Fault)

namespace Reading

variable {α β : Type}

def atPlace (place : Nat) : Except Fault α → Reading α
  | .ok value => .ok value
  | .error fault => .failed place fault

def toExcept : Reading α → Except Fault α
  | .ok value => .ok value
  | .failed _ fault => .error fault

def apply : Reading (α → β) → Reading α → Reading β
  | .ok f, .ok value => .ok (f value)
  | .ok _, .failed place fault => .failed place fault
  | .failed place fault, .ok _ => .failed place fault
  | .failed place fault, .failed place' fault' =>
    if place ≤ place' then .failed place fault else .failed place' fault'

instance : Applicative Reading where
  pure := .ok
  seq f x := apply f (x ())

theorem seq_eq_ok_iff {f : Reading (α → β)} {x : Reading α} {b : β} :
    (f <*> x) = .ok b ↔ ∃ g a, f = .ok g ∧ x = .ok a ∧ g a = b := by
  show apply f x = .ok b ↔ _
  cases f <;> cases x <;> simp [apply]
  split <;> simp

end Reading

end FormRules.Decode
