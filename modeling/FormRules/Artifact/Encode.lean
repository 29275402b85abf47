import FormRules.Artifact.Basic

/-!
# Writing artifacts

Artifacts as JSON values. The tag comes first, then the members in declared order. What is absent
is left out, and so are empty lists and maps, except the fields of a form and the contents of a
bundle.
-/

namespace FormRules

/-- The entry of a member that may be absent. -/
def Json.entry? {α : Type} (name : String) (value : Option α) (encode : α → Json) :
    List (String × Json) :=
  match value with
  | some value => [(name, encode value)]
  | none => []

def Condition.toJson : Condition → Json
  | .literal value => .boolean value
  | .expression text => .text text

def FieldType.toJson (type : FieldType) : Json := .text type.name

def ArtifactKind.toEntry (kind : ArtifactKind) : String × Json := ("kind", .text kind.name)

def ItemKind.toEntry (kind : ItemKind) : String × Json := ("type", .text kind.name)

namespace Field

mutual

def toJson : Field → Json
  | ⟨type, label, description, required, visible, fields⟩ =>
    .object
      ([("type", type.toJson)] ++ Json.entry? "label" label .text ++
        Json.entry? "description" description .text ++
        Json.entry? "required" required Condition.toJson ++
        Json.entry? "visible" visible Condition.toJson ++
        match fields with
        | [] => []
        | _ => [("fields", .object (entriesToJson fields))])

def entriesToJson : List (String × Field) → List (String × Json)
  | [] => []
  | (id, field) :: rest => (id, field.toJson) :: entriesToJson rest

end

end Field

def Fields.toJson (fields : Fields) : Json := .object (Field.entriesToJson fields.entries)

def Annex.toJson (annex : Annex) : Json :=
  .object
    ([("id", .text annex.id)] ++ Json.entry? "title" annex.title .text ++
      Json.entry? "required" annex.required Condition.toJson ++
      Json.entry? "visible" annex.visible Condition.toJson)

def LogicValue.toJson : LogicValue → Json
  | .literal value => .boolean value
  | .expression text => .text text
  | .object properties => .object (properties.entries.map fun entry ↦ (entry.1, .text entry.2))

def LogicEntry.toJson (entry : LogicEntry) : Json :=
  .object
    ([("type", entry.type.toJson)] ++ Json.entry? "label" entry.label .text ++
      Json.entry? "description" entry.description .text ++ [("value", entry.value.toJson)])

def LogicSection.toEntries (logic : LogicSection) : List (String × Json) :=
  if logic.isEmpty then []
  else [("logic", .object (logic.entries.map fun entry ↦ (entry.1, entry.2.toJson)))]

namespace Form

def toEntries (form : Form) : List (String × Json) :=
  Json.entry? "name" form.name .text ++ Json.entry? "title" form.title .text ++
    [("fields", form.fields.toJson)] ++
    (if form.annexes.isEmpty then []
      else [("annexes", .array (form.annexes.map Annex.toJson))]) ++
    LogicSection.toEntries form.logic

def toJson (form : Form) : Json := .object form.toEntries

end Form

def Enclosure.toEntries (enclosure : Enclosure) : List (String × Json) :=
  Json.entry? "name" enclosure.name .text ++ enclosure.rest.entries

namespace Artifact

mutual

def toJson : Artifact → Json
  | .form f => .object (ArtifactKind.form.toEntry :: f.toEntries)
  | .bundle name title logic contents =>
    .object
      ([ArtifactKind.bundle.toEntry] ++ Json.entry? "name" name .text ++
        Json.entry? "title" title .text ++ LogicSection.toEntries logic ++
        [("contents", .array (itemsToJson contents))])
  | .document enclosure => .object (ArtifactKind.document.toEntry :: enclosure.toEntries)
  | .checklist enclosure => .object (ArtifactKind.checklist.toEntry :: enclosure.toEntries)

def itemToJson : Item → Json
  | .inline key condition artifact =>
    .object
      ([ItemKind.inline.toEntry, ("key", .text key)] ++
        Json.entry? "include" condition Condition.toJson ++ [("artifact", artifact.toJson)])
  | .path key condition path =>
    .object
      ([ItemKind.path.toEntry, ("key", .text key)] ++
        Json.entry? "include" condition Condition.toJson ++ [("path", .text path)])
  | .registry key condition slug =>
    .object
      ([ItemKind.registry.toEntry, ("key", .text key)] ++
        Json.entry? "include" condition Condition.toJson ++ [("slug", .text slug)])

def itemsToJson : List Item → List Json
  | [] => []
  | item :: rest => itemToJson item :: itemsToJson rest

end

end Artifact

end FormRules
