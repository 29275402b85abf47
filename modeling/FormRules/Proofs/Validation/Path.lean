import FormRules.Proofs.Artifact.Written
import FormRules.Proofs.Validation.Visited

/-!
# Paths through written artifacts

A path leads from a value to a value within it, by keys through objects and by places through
arrays. The parts of an artifact stand in what is written of it where they are expected: a part that
is left out has no place, and a field that is reached through fieldsets stands below all of them.
-/

namespace FormRules

namespace Json

/-- What is written in a value under a step of a path. -/
def child? : Json → PathSegment → Option Json
  | .object entries, .key name => Keyed.get? entries name
  | .array items, .index place => items[place]?
  | _, _ => none

/-- What a path leads to. -/
def at? (document : Json) (path : IssuePath) : Option Json := path.foldlM child? document

variable {document node : Json} {path : IssuePath}

@[simp] theorem child?_key (entries : List (String × Json)) (name : String) :
    (object entries).child? (.key name) = Keyed.get? entries name := rfl

@[simp] theorem child?_index (items : List Json) (place : Nat) :
    (array items).child? (.index place) = items[place]? := rfl

@[simp] theorem at?_nil : document.at? [] = some document := rfl

@[simp] theorem at?_cons (segment : PathSegment) (rest : IssuePath) :
    document.at? (segment :: rest) = (document.child? segment).bind (at? · rest) :=
  List.foldlM_cons

theorem at?_append (h : document.at? path = some node) (rest : IssuePath) :
    document.at? (path ++ rest) = node.at? rest := by
  rw [at?, List.foldlM_append, ← at?, h]
  rfl

theorem at?_concat (h : document.at? path = some node) (segment : PathSegment) :
    document.at? (path ++ [segment]) = node.child? segment := by
  rw [at?_append h, at?_cons]
  exact Option.bind_fun_some _

end Json

/-! ## Fields, annexes and rules -/

theorem Field.child?_required (field : Field) :
    field.toJson.child? (.key "required") = field.required.map Condition.toJson := by
  simp [Field.toJson_eq, Keyed.get?_cons]

theorem Field.child?_visible (field : Field) :
    field.toJson.child? (.key "visible") = field.visible.map Condition.toJson := by
  simp [Field.toJson_eq, Keyed.get?_cons]

theorem Field.child?_fields {field : Field} (filled : field.fields ≠ []) :
    field.toJson.child? (.key "fields") = some (.object (entriesToJson field.fields)) := by
  simp [Field.toJson_eq, Keyed.get?_cons, filled]

theorem Annex.child?_required (annex : Annex) :
    annex.toJson.child? (.key "required") = annex.required.map Condition.toJson := by
  simp [Annex.toJson, Keyed.get?_cons]

theorem Annex.child?_visible (annex : Annex) :
    annex.toJson.child? (.key "visible") = annex.visible.map Condition.toJson := by
  simp [Annex.toJson, Keyed.get?_cons]

theorem LogicEntry.child?_value (entry : LogicEntry) :
    entry.toJson.child? (.key "value") = some entry.value.toJson := by
  simp [LogicEntry.toJson, Keyed.get?_cons]

theorem LogicValue.child?_property (properties : OrderedMap String String) (name : String) :
    (LogicValue.object properties).toJson.child? (.key name) =
      (properties.get? name).map Json.text :=
  Keyed.get?_map _

namespace Field

theorem child?_entriesToJson {entries : List (String × Field)} {id : String} {field : Field}
    (distinct : DistinctEntries entries) (member : (id, field) ∈ entries) :
    (Json.object (entriesToJson entries)).child? (.key id) = some field.toJson := by
  have found := Keyed.get?_of_mem (distinctEntries_iff.1 distinct).1 member
  rw [Json.child?_key, entriesToJson_eq_map, Keyed.get?_map, found]
  rfl

/-- A field that is reached through fieldsets stands at its place, provided no id is used twice. -/
theorem Reached.at?_place {entries : List (String × Field)} {outer : List String} {id : String}
    {field : Field} (reached : Reached entries outer id field) (distinct : DistinctEntries entries)
    {document : Json} {path : IssuePath}
    (stands : document.at? path = some (.object (entriesToJson entries))) :
    document.at? (place path outer id) = some field.toJson := by
  induction reached generalizing path with
  | top member =>
    exact (Json.at?_concat stands _).trans (child?_entriesToJson distinct member)
  | @inner entries first id fieldset field outer member _ reached ih =>
    -- Fields are left out of a fieldset that has none, but nothing is reached through such a one.
    have filled : fieldset.fields ≠ [] := by
      intro none
      rw [none] at reached
      exact not_reached_empty reached
    have within : fieldset.Distinct := (distinctEntries_iff.1 distinct).2 _ member
    rw [place_cons]
    apply ih within.fields
    rw [Json.at?_append stands]
    simp [child?_entriesToJson distinct member, child?_fields filled]

end Field

/-! ## Artifacts -/

namespace Artifact

theorem form_at?_fields (form : Form) :
    (Artifact.form form).toJson.at? [.key "fields"] = some form.fields.toJson := by
  simp [toJson_eq, members, Form.toEntries, ArtifactKind.toEntry, Keyed.get?_cons]

theorem form_at?_annexes (form : Form) (place : Nat) :
    (Artifact.form form).toJson.at? [.key "annexes", .index place] =
      form.annexes[place]?.map Annex.toJson := by
  by_cases listed : form.annexes = [] <;>
    simp [toJson_eq, members, Form.toEntries, ArtifactKind.toEntry, Keyed.get?_cons, listed]

@[simp] theorem logic_form (form : Form) : (Artifact.form form).logic = form.logic := rfl

@[simp] theorem logic_bundle (name title : Option String) (logic : LogicSection)
    (contents : List Item) : (Artifact.bundle name title logic contents).logic = logic := rfl

theorem child?_logic {artifact : Artifact} (filled : ¬artifact.logic.isEmpty) :
    artifact.toJson.child? (.key "logic") =
      some (.object (artifact.logic.entries.map fun entry ↦ (entry.1, entry.2.toJson))) := by
  cases artifact with
  | form f =>
    rw [logic_form] at filled
    simp [toJson_eq, members, Form.toEntries, ArtifactKind.toEntry, Keyed.get?_cons, filled]
  | bundle name title logic contents =>
    rw [logic_bundle] at filled
    simp [toJson_eq, members, ArtifactKind.toEntry, Keyed.get?_cons, filled]
  | document | checklist => cases filled rfl

theorem at?_rule {artifact : Artifact} {key : String} {entry : LogicEntry}
    (found : artifact.logic.get? key = some entry) :
    artifact.toJson.at? [.key "logic", .key key] = some entry.toJson := by
  have filled : ¬artifact.logic.isEmpty := by
    intro empty
    rw [OrderedMap.eq_empty empty] at found
    cases found
  rw [OrderedMap.get?] at found
  simp [child?_logic filled, Keyed.get?_map, found]

theorem bundle_at?_contents (name title : Option String) (logic : LogicSection)
    (contents : List Item) (place : Nat) :
    (Artifact.bundle name title logic contents).toJson.at? [.key "contents", .index place] =
      contents[place]?.map itemToJson := by
  simp [toJson_eq, members, ArtifactKind.toEntry, Keyed.get?_cons, itemsToJson_eq_map]

theorem item_child?_include (item : Item) :
    (itemToJson item).child? (.key "include") = item.condition.map Condition.toJson := by
  cases item <;>
    simp [itemToJson_eq, Item.members, Item.target, ItemKind.toEntry, Keyed.get?_cons]

theorem inline_child?_artifact (key : String) (condition : Option Condition) (artifact : Artifact) :
    (itemToJson (.inline key condition artifact)).child? (.key "artifact") =
      some artifact.toJson := by
  simp [itemToJson_eq, Item.members, Item.target, ItemKind.toEntry, Keyed.get?_cons]

end Artifact

end FormRules
