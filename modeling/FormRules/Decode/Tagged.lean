import FormRules.Decode.Record
import FormRules.Keyed.Entries

/-!
# Decoding tagged values

A tagged value is an object in which one entry, the tag, says which kind of value the others make,
or an array that begins with the tag.
-/

namespace FormRules.Decode

/-- The name of a tagged type in messages, the key of its tag, and its tags in declared order, each
with the case that it selects. -/
structure TaggedType (κ : Type) where
  title : String
  key : String
  cases : List (String × κ)

namespace TaggedType

variable {κ : Type}

/-- The case that a tag selects. Within an artifact a tag may be given by its place in the list. -/
def tag (type : TaggedType κ) (setting : Setting) (value : Json) : Except Fault κ :=
  match setting, value with
  | _, .text name =>
    match type.cases.lookup name with
    | some case => .ok case
    | none => .error (.unknownCase name (type.cases.map Prod.fst))
  | .embedded, .number (.integer (.ofNat n)) =>
    match type.cases[n]? with
    | some (_, case) => .ok case
    | none => .error (.value (.number (.integer n)) (.tagIndex type.cases.length))
  | _, value => .error (.kind value.outline .tag)

/-- The case that the tag of a value selects, and what is left of the value without its tag. -/
structure Split (κ : Type) (bound : Nat) where
  case : κ
  rest : Json
  smaller : rest.size ≤ bound

theorem sizeEntries_filter_le (keep : String × Json → Bool) (entries : List (String × Json)) :
    Json.sizeEntries (entries.filter keep) ≤ Json.sizeEntries entries := by
  induction entries with
  | nil => exact Nat.le_refl _
  | cons entry rest ih =>
    rw [List.filter_cons]
    split
    · exact Nat.add_le_add_left ih _
    · exact Nat.le_trans ih (Nat.le_add_left _ _)

def split (type : TaggedType κ) (setting : Setting) (value : Json) :
    Except Fault (Split κ value.size) :=
  match value with
  | .object entries => do
    match Keyed.get? entries type.key with
    | none => throw (.missing type.key)
    | some given =>
      pure ⟨← type.tag setting given, .object (entries.filter (·.1 ≠ type.key)),
        Nat.succ_le_succ (sizeEntries_filter_le _ entries)⟩
  | .array [] => .error (.missing type.key)
  | .array (given :: rest) => do
    pure ⟨← type.tag setting given, .array rest, Nat.succ_le_succ (Nat.le_add_left _ _)⟩
  | value => .error (.kind value.outline (.tagged type.title))

end TaggedType

end FormRules.Decode
