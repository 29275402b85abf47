import FormRules.Artifact.Field
import FormRules.Keyed.OrderedMap

/-!
# Field paths

The names by which expressions refer to the fields of a form. A field with a value has the path of
its value and, if it is composite, a path for each property; a fieldset has no value and only leads
on to its own fields. Fieldsets that are nested too deeply are passed over.
-/

namespace FormRules

def fieldRoot : String := "fields"

/-- How many fieldsets may enclose one another unless something else is asked for. -/
def defaultMaxDepth : Nat := 32

namespace Field

def within (path name : String) : String := path ++ "." ++ name

def valuePaths (type : FieldType) (path : String) : List (String × ValueType) :=
  (path, type.valueType) :: type.properties.map fun property ↦
    (within path property.1, property.2)

mutual

/-- The paths that a field exposes, given the path of the field and how many more fieldsets may be
entered. -/
def exposed (room : Nat) (path : String) : Field → List (String × ValueType)
  | ⟨.fieldset, _, _, _, _, fields⟩ =>
    match room with
    | 0 => []
    | room + 1 => exposedAll room path fields
  | ⟨type, _, _, _, _, _⟩ => valuePaths type (within path "value")

def exposedAll (room : Nat) (path : String) : List (String × Field) → List (String × ValueType)
  | [] => []
  | (id, field) :: rest => field.exposed room (within path id) ++ exposedAll room path rest

end

/-- The id of a field in a group. The outermost group has no id, and an empty one counts as none. -/
def dottedId (group id : String) : String := if group = "" then id else within group id

mutual

/-- The dotted ids of a field and of those within it. -/
def dottedIds (room : Nat) (full : String) : Field → List String
  | ⟨.fieldset, _, _, _, _, fields⟩ =>
    match room with
    | 0 => [full]
    | room + 1 => full :: dottedIdsAll room full fields
  | _ => [full]

def dottedIdsAll (room : Nat) (group : String) : List (String × Field) → List String
  | [] => []
  | (id, field) :: rest =>
    field.dottedIds room (dottedId group id) ++ dottedIdsAll room group rest

end

end Field

namespace Fields

/-- The types of all paths that fields expose below a path, in declaration order. -/
def types (fields : Fields) (path : String) (maxDepth : Nat) : OrderedMap String ValueType :=
  .ofList (Field.exposedAll maxDepth path fields.entries)

def paths (fields : Fields) (path : String) : List String :=
  (fields.types path defaultMaxDepth).keys

def allIds (fields : Fields) : List String :=
  (Field.dottedIdsAll defaultMaxDepth "" fields.entries).eraseDups

end Fields

end FormRules
