import FormRules.Number.Text

/-!
# JSON values

Values with the order of object keys kept, since that order decides the order of all answers. A
number is an integer of 64 bits or a double; a double is kept as an exact sign and magnitude, so
equality of values is equality of what they denote.
-/

namespace FormRules

inductive JsonNumber where
  | integer (value : Int)
  | double (negative : Bool) (magnitude : Magnitude)
deriving DecidableEq, Repr, Inhabited

inductive Json where
  | null
  | boolean (value : Bool)
  | number (value : JsonNumber)
  | text (content : String)
  | array (items : List Json)
  | object (entries : List (String × Json))
deriving Repr, Inhabited

namespace JsonNumber

def render : JsonNumber → String
  | .integer value => toString value
  | .double negative magnitude =>
    String.ofList ((if negative then ['-'] else []) ++ magnitude.shortest.compact)

end JsonNumber

namespace Json

def natural (n : Nat) : Json := .number (.integer n)

def textOrNull : Option String → Json
  | some content => .text content
  | none => .null

mutual

def size : Json → Nat
  | .array items => sizeItems items + 1
  | .object entries => sizeEntries entries + 1
  | _ => 1

def sizeItems : List Json → Nat
  | [] => 0
  | item :: rest => item.size + sizeItems rest

def sizeEntries : List (String × Json) → Nat
  | [] => 0
  | (_, value) :: rest => value.size + sizeEntries rest

end

theorem size_le_sizeItems {item : Json} {items : List Json} (h : item ∈ items) :
    item.size ≤ sizeItems items := by
  induction items with
  | nil => cases h
  | cons first rest ih =>
    rcases List.mem_cons.1 h with rfl | h
    · exact Nat.le_add_right _ _
    · exact Nat.le_trans (ih h) (Nat.le_add_left _ _)

theorem size_le_sizeEntries {entry : String × Json} {entries : List (String × Json)}
    (h : entry ∈ entries) : entry.2.size ≤ sizeEntries entries := by
  induction entries with
  | nil => cases h
  | cons first rest ih =>
    rcases List.mem_cons.1 h with rfl | h
    · exact Nat.le_add_right _ _
    · exact Nat.le_trans (ih h) (Nat.le_add_left _ _)

/-- A value that is smaller than a bound. -/
abbrev Within (bound : Nat) := { value : Json // value.size < bound }

/-- The elements of an array, each smaller than the array. -/
def itemsWithin (items : List Json) : List (Within (Json.array items).size) :=
  items.attach.map fun item ↦ ⟨item.1, Nat.lt_succ_of_le (size_le_sizeItems item.2)⟩

def entriesWithin (entries : List (String × Json)) :
    List (String × Within (Json.object entries).size) :=
  entries.attach.map fun entry ↦
    (entry.1.1, ⟨entry.1.2, Nat.lt_succ_of_le (size_le_sizeEntries entry.2)⟩)

end Json

end FormRules
