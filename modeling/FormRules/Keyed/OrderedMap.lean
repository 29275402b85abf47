import FormRules.Keyed.Entries

/-!
# Ordered maps

A finite map that remembers the order in which its keys were first written. No key occurs twice,
and that is part of the type.
-/

namespace FormRules

/-- A map from keys to values, in the order of first insertion. -/
structure OrderedMap (κ α : Type) where
  entries : List (κ × α)
  nodup : (Keyed.keys entries).Nodup

namespace OrderedMap

variable {κ α : Type} [DecidableEq κ]

omit [DecidableEq κ] in
@[ext] theorem ext {m n : OrderedMap κ α} (h : m.entries = n.entries) : m = n := by
  cases m
  cases n
  cases h
  rfl

instance [DecidableEq α] : DecidableEq (OrderedMap κ α) := fun m n ↦
  decidable_of_iff (m.entries = n.entries) ⟨ext, fun h ↦ h ▸ rfl⟩

def empty : OrderedMap κ α := ⟨[], List.nodup_nil⟩

instance : Inhabited (OrderedMap κ α) := ⟨⟨[], List.nodup_nil⟩⟩

def keys (m : OrderedMap κ α) : List κ := Keyed.keys m.entries

def get? (m : OrderedMap κ α) (key : κ) : Option α := Keyed.get? m.entries key

def contains (m : OrderedMap κ α) (key : κ) : Bool := (m.get? key).isSome

def size (m : OrderedMap κ α) : Nat := m.entries.length

def isEmpty (m : OrderedMap κ α) : Bool := m.entries.isEmpty

/-- Writes a value: in place if the key is there, at the end otherwise. -/
def insert (m : OrderedMap κ α) (key : κ) (value : α) : OrderedMap κ α :=
  ⟨Keyed.put key value m.entries, Keyed.nodup_keys_put key value m.nodup⟩

def ofList (entries : List (κ × α)) : OrderedMap κ α :=
  ⟨Keyed.ofList entries, Keyed.nodup_keys_ofList entries⟩

omit [DecidableEq κ] in
theorem nodup_keys (m : OrderedMap κ α) : m.keys.Nodup := m.nodup

@[simp] theorem get?_empty (key : κ) : (empty : OrderedMap κ α).get? key = none := rfl

theorem get?_insert (m : OrderedMap κ α) (key : κ) (value : α) (other : κ) :
    (m.insert key value).get? other = if key = other then some value else m.get? other :=
  Keyed.get?_put key value m.entries other

theorem keys_insert (m : OrderedMap κ α) (key : κ) (value : α) :
    (m.insert key value).keys = if key ∈ m.keys then m.keys else m.keys ++ [key] :=
  Keyed.keys_put key value m.entries

theorem contains_eq_true_iff {m : OrderedMap κ α} {key : κ} :
    m.contains key = true ↔ key ∈ m.keys :=
  Keyed.get?_isSome_iff

end OrderedMap

end FormRules
