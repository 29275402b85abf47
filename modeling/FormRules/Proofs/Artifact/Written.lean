import FormRules.Artifact.Encode
import FormRules.Proofs.Keyed.OrderedMap

/-!
# What is written under a key

A record is written piece by piece, and a piece has one entry or none. What stands under a key is
found by going through the pieces, since no two of them have the same key.
-/

namespace FormRules

@[simp] theorem Json.get?_entry? {α : Type} (name : String) (value : Option α) (encode : α → Json)
    (key : String) : Keyed.get? (Json.entry? name value encode) key =
      if name = key then value.map encode else none := by
  cases value with
  | none => exact (ite_self none).symm
  | some value => exact Keyed.get?_cons _ _ _

/-- The entry of a list or map that is left out if it is empty. -/
@[simp] theorem Json.get?_unless (empty : Prop) [Decidable empty] (name : String) (part : Json)
    (key : String) : Keyed.get? (if empty then [] else [(name, part)]) key =
      if name = key ∧ ¬empty then some part else none := by
  by_cases empty <;> simp_all [Keyed.get?_cons]

@[simp] theorem LogicSection.get?_toEntries (logic : LogicSection) (key : String) :
    Keyed.get? (toEntries logic) key = if "logic" = key ∧ ¬logic.isEmpty then
      some (.object (logic.entries.map fun entry ↦ (entry.1, entry.2.toJson))) else none :=
  Json.get?_unless _ _ _ _

theorem Field.toJson_eq (field : Field) : field.toJson = .object
    ([("type", field.type.toJson)] ++ Json.entry? "label" field.label .text ++
      Json.entry? "description" field.description .text ++
      Json.entry? "required" field.required Condition.toJson ++
      Json.entry? "visible" field.visible Condition.toJson ++
      if field.fields.isEmpty then [] else [("fields", .object (entriesToJson field.fields))]) := by
  obtain ⟨type, label, description, required, visible, fields⟩ := field
  cases fields <;> rfl

theorem Field.entriesToJson_eq_map (entries : List (String × Field)) :
    entriesToJson entries = entries.map fun entry ↦ (entry.1, entry.2.toJson) := by
  induction entries with
  | nil => rw [entriesToJson, List.map_nil]
  | cons entry rest ih => rw [entriesToJson, ih, List.map_cons]

/-! ## Artifacts and items -/

/-- What is written of an artifact after its tag. -/
def Artifact.members : Artifact → List (String × Json)
  | .form f => f.toEntries
  | .bundle name title logic contents =>
    Json.entry? "name" name .text ++ Json.entry? "title" title .text ++
      LogicSection.toEntries logic ++ [("contents", .array (itemsToJson contents))]
  | .document enclosure | .checklist enclosure => enclosure.toEntries

/-- The last entry that is written of an item: the artifact or where to find it. -/
def Item.target : Item → String × Json
  | .inline _ _ artifact => ("artifact", artifact.toJson)
  | .path _ _ file => ("path", .text file)
  | .registry _ _ slug => ("slug", .text slug)

/-- What is written of an item after its tag. -/
def Item.members (item : Item) : List (String × Json) :=
  ("key", .text item.key) ::
    (Json.entry? "include" item.condition Condition.toJson ++ [item.target])

namespace Artifact

theorem toJson_eq (artifact : Artifact) :
    artifact.toJson = .object (artifact.kind.toEntry :: artifact.members) := by
  cases artifact <;> rfl

theorem itemToJson_eq (item : Item) :
    itemToJson item = .object (item.kind.toEntry :: item.members) := by
  cases item <;> rfl

theorem itemsToJson_eq_map (items : List Item) : itemsToJson items = items.map itemToJson := by
  induction items with
  | nil => rw [itemsToJson, List.map_nil]
  | cons item rest ih => rw [itemsToJson, ih, List.map_cons]

end Artifact

end FormRules
