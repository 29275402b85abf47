import FormRules.Decode.Reading
import FormRules.Decode.Value

/-!
# Decoding records

A record is written as an object with its members in any order and unknown keys among them, or as
an array of its members in declared order. Both spellings are brought to one list of named parts.
The part that a reader is given is smaller than the whole, so readers of nested data can recurse.
-/

namespace FormRules.Decode

/-- The name of a record in messages, and its members in declared order. -/
structure RecordType where
  title : String
  members : List String

/-- A record as data give it. -/
structure Record (bound : Nat) where
  type : RecordType
  parts : List (String × Json.Within bound)
  /-- Whether the members have no names and are told apart by their order. -/
  positional : Bool
  surplus : Option Fault

namespace Record

variable {bound : Nat} {α : Type}

/-- The fault of an array that has more elements than its record has members. -/
def surplusOf (setting : Setting) (given members : Nat) : Option Fault :=
  if given ≤ members then none
  else some (.length given (if setting = .alone then .fewerItems else .exactItems members))

def ofJson (type : RecordType) (setting : Setting) (value : Json) :
    Except Fault (Record value.size) :=
  match value with
  | .object entries => .ok ⟨type, Json.entriesWithin entries, false, none⟩
  | .array items =>
    .ok ⟨type, type.members.zip (Json.itemsWithin items), true,
      surplusOf setting items.length type.members.length⟩
  | value => .error (.kind value.outline (.record type.title))

def widen {wider : Nat} (h : bound ≤ wider) (r : Record bound) : Record wider :=
  { r with
    parts := r.parts.map fun part ↦ (part.1, ⟨part.2.1, Nat.lt_of_lt_of_le part.2.2 h⟩) }

def find? (name : String) (place : Nat) : List (String × Json.Within bound) →
    Option (Nat × Json.Within bound)
  | [] => none
  | part :: rest => if part.1 = name then some (place, part.2) else find? name (place + 1) rest

/-- The place of a member that is absent: after all parts, in declared order. -/
def absentPlace (r : Record bound) (name : String) : Nat :=
  r.parts.length + r.type.members.idxOf name

def absence (r : Record bound) (name : String) : Fault :=
  if r.positional then
    .length (r.type.members.idxOf name) (.members r.type.title r.type.members.length)
  else .missing name

def optional (r : Record bound) (name : String) (default : α)
    (read : (part : Json) → part.size < bound → Except Fault α) : Reading α :=
  match find? name 0 r.parts with
  | some (place, part) => .atPlace place (read part.1 part.2)
  | none => .ok default

def required (r : Record bound) (name : String)
    (read : (part : Json) → part.size < bound → Except Fault α) : Reading α :=
  match find? name 0 r.parts with
  | some (place, part) => .atPlace place (read part.1 part.2)
  | none => .failed (r.absentPlace name) (r.absence name)

/-- Reads an optional member: one that may be absent if members have names, and must be there if
they have none. -/
def named (r : Record bound) (name : String) (default : α)
    (read : (part : Json) → part.size < bound → Except Fault α) : Reading α :=
  if r.positional then r.required name read else r.optional name default read

/-- The outcome of reading all members. A surplus counts only if the members are sound. -/
def close (r : Record bound) (reading : Reading α) : Except Fault α :=
  match reading, r.surplus with
  | .ok _, some fault => .error fault
  | reading, _ => reading.toExcept

end Record

end FormRules.Decode
