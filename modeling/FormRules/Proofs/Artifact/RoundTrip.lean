import FormRules.Artifact.Decode
import FormRules.Proofs.Artifact.Written
import FormRules.Proofs.Decode.Record

/-!
# Reading what has been written

Every artifact is read back from what is written of it. A member that is left out has a default that
is read in its place, and tags are read from among the other entries, which they are not mixed up
with: no record has a member with the key of its tag, and what is kept of a document has neither the
key of the tag nor that of the name.
-/

namespace FormRules

open Decode

/-! ## Parts of artifacts -/

theorem FieldType.ofJson_toJson (setting : Setting) (type : FieldType) :
    ofJson setting type.toJson = .ok type :=
  congrArg Except.ok (ofName_name type)

theorem Condition.ofJson?_toJson (condition : Condition) :
    ofJson? condition.toJson = .ok (some condition) := by
  cases condition <;> rfl

namespace Decode.Record.Spells

variable {bound : Nat} {r : Record bound} {entries : List (String × Json)} {name : String}

theorem optional_text {content : Option String} (spells : r.Spells entries)
    (written : Keyed.get? entries name = content.map .text) :
    r.optional name none (fun part _ ↦ Decode.text? part) = .ok content :=
  spells.option Decode.text? written fun _ ↦ rfl

theorem optional_condition {condition : Option Condition} (spells : r.Spells entries)
    (written : Keyed.get? entries name = condition.map Condition.toJson) :
    r.optional name none (fun part _ ↦ Condition.ofJson? part) = .ok condition :=
  spells.option Condition.ofJson? written Condition.ofJson?_toJson

end Decode.Record.Spells

theorem LogicValue.ofJson_toJson (value : LogicValue) : ofJson value.toJson = .ok value := by
  cases value with
  | literal value => rfl
  | expression text => rfl
  | object properties =>
    have leaves : entries (LogicValue.object properties).toJson (fun part _ ↦ text part) =
        .ok properties.entries :=
      entries_eq_ok fun _ _ ↦ rfl
    rw [toJson] at leaves ⊢
    rw [ofJson, leaves]
    · exact congrArg (Except.ok ∘ LogicValue.object) properties.ofList_entries
    · rintro _ ⟨⟩
    · rintro _ ⟨⟩

theorem Annex.ofJson_toJson (setting : Setting) (annex : Annex) :
    ofJson setting annex.toJson = .ok annex := by
  unfold ofJson toJson
  apply Record.ofJson_bind_eq_ok
  intro r written
  have id := written.required text
    (show Keyed.get? _ "id" = some (.text annex.id) by simp [Keyed.get?_cons]) rfl
  have title := written.optional_text
    (show Keyed.get? _ "title" = annex.title.map Json.text by simp [Keyed.get?_cons])
  have required := written.optional_condition
    (show Keyed.get? _ "required" = annex.required.map Condition.toJson by
      simp [Keyed.get?_cons])
  have visible := written.optional_condition
    (show Keyed.get? _ "visible" = annex.visible.map Condition.toJson by
      simp [Keyed.get?_cons])
  rw [id, title, required, visible]
  exact written.close annex

theorem LogicEntry.ofJson_toJson (setting : Setting) (entry : LogicEntry) :
    ofJson setting entry.toJson = .ok entry := by
  unfold ofJson toJson
  apply Record.ofJson_bind_eq_ok
  intro r written
  have type := written.required (FieldType.ofJson setting)
    (show Keyed.get? _ "type" = some entry.type.toJson by simp [Keyed.get?_cons])
    (FieldType.ofJson_toJson setting entry.type)
  have label := written.optional_text
    (show Keyed.get? _ "label" = entry.label.map Json.text by simp [Keyed.get?_cons])
  have description := written.optional_text
    (show Keyed.get? _ "description" = entry.description.map Json.text by simp [Keyed.get?_cons])
  have value := written.required LogicValue.ofJson
    (show Keyed.get? _ "value" = some entry.value.toJson by simp [Keyed.get?_cons])
    entry.value.ofJson_toJson
  rw [type, label, description, value]
  exact written.close entry

theorem LogicSection.ofJson_entries (setting : Setting) (logic : LogicSection) :
    ofJson setting (.object (logic.entries.map fun entry ↦ (entry.1, entry.2.toJson))) =
      .ok logic := by
  have rules : entries (.object (logic.entries.map fun entry ↦ (entry.1, entry.2.toJson)))
      (fun part _ ↦ LogicEntry.ofJson setting part) = .ok logic.entries :=
    entries_eq_ok fun entry _ ↦ entry.2.ofJson_toJson setting
  rw [ofJson, rules]
  exact congrArg Except.ok logic.ofList_entries

/-! ## Fields -/

namespace Field

mutual

theorem ofJson_toJson (setting : Setting) : ∀ field : Field,
    ofJson setting field.toJson = .ok field
  | ⟨type, label, description, required, visible, fields⟩ => by
    have inner := forall_ofJson_toJson setting fields
    rw [ofJson, toJson_eq]
    apply Record.ofJson_bind_eq_ok
    intro r written
    have type_read := written.required (FieldType.ofJson setting)
      (show Keyed.get? _ "type" = some type.toJson by simp [Keyed.get?_cons])
      (FieldType.ofJson_toJson setting type)
    have label_read := written.optional_text
      (show Keyed.get? _ "label" = label.map Json.text by simp [Keyed.get?_cons])
    have description_read := written.optional_text
      (show Keyed.get? _ "description" = description.map Json.text by simp [Keyed.get?_cons])
    have required_read := written.optional_condition
      (show Keyed.get? _ "required" = required.map Condition.toJson by simp [Keyed.get?_cons])
    have visible_read := written.optional_condition
      (show Keyed.get? _ "visible" = visible.map Condition.toJson by simp [Keyed.get?_cons])
    have fields_read := written.unlessEmpty
      (fun part ↦ entries part fun field _ ↦ Field.ofJson setting field)
      (show Keyed.get? _ "fields" =
        if ¬fields.isEmpty then some (.object (entriesToJson fields)) else none by
          simp [Keyed.get?_cons])
      (by
        rw [entriesToJson_eq_map]
        exact entries_eq_ok inner) List.isEmpty_iff.1
    rw [type_read, label_read, description_read, required_read, visible_read, fields_read]
    exact written.close _

theorem forall_ofJson_toJson (setting : Setting) : ∀ fields : List (String × Field),
    ∀ entry ∈ fields, ofJson setting entry.2.toJson = .ok entry.2
  | [] => by
    rintro _ ⟨⟩
  | (id, field) :: rest => by
    rw [List.forall_mem_cons]
    exact ⟨ofJson_toJson setting field, forall_ofJson_toJson setting rest⟩

end

mutual

/-- A field in which no id is repeated is tidy already. -/
theorem tidy_eq_self : ∀ field : Field, field.Distinct → field.tidy = field
  | ⟨type, label, description, required, visible, fields⟩, distinct => by
    rw [tidy, putAll_eq_append fields [] distinct fun _ _ ↦ List.not_mem_nil, List.nil_append]

theorem putAll_eq_append : ∀ (entries written : List (String × Field)), DistinctEntries entries →
    (∀ id ∈ Keyed.keys entries, id ∉ Keyed.keys written) →
      putAll entries written = written ++ entries
  | [], written, _, _ => (List.append_nil written).symm
  | (id, field) :: rest, written, ⟨new, distinct, others⟩, fresh => by
    have unwritten : id ∉ Keyed.keys written := fresh id List.mem_cons_self
    have later : ∀ other ∈ Keyed.keys rest, other ∉ Keyed.keys (written ++ [(id, field)]) := by
      intro other member found
      rw [Keyed.keys, List.map_append, List.mem_append] at found
      rcases found with found | found
      · exact fresh other (List.mem_cons_of_mem _ member) found
      · cases List.mem_singleton.1 found
        exact new member
    rw [putAll, tidy_eq_self field distinct, Keyed.put_of_notMem unwritten,
      putAll_eq_append rest _ others later, List.append_assoc, List.singleton_append]

end

end Field

theorem Fields.ofJson_toJson (setting : Setting) (fields : Fields) :
    ofJson setting fields.toJson = .ok fields := by
  have read : Decode.entries fields.toJson (fun part _ ↦ Field.ofJson setting part) =
      .ok fields.entries := by
    rw [toJson, Field.entriesToJson_eq_map]
    exact entries_eq_ok fun entry _ ↦ entry.2.ofJson_toJson setting
  have kept : ofEntries fields.entries = fields :=
    Fields.ext (Field.putAll_eq_append _ [] fields.distinct fun _ _ ↦ List.not_mem_nil)
  rw [ofJson, read]
  exact congrArg Except.ok kept

/-! ## Artifacts -/

theorem LogicSection.optional_eq_ok {bound : Nat} {r : Record bound}
    {entries : List (String × Json)} (setting : Setting) (logic : LogicSection)
    (written : r.Spells entries)
    (found : Keyed.get? entries "logic" = Keyed.get? (toEntries logic) "logic") :
    r.optional "logic" .empty (fun part _ ↦ LogicSection.ofJson setting part) = .ok logic :=
  written.unlessEmpty (LogicSection.ofJson setting)
    (show Keyed.get? entries "logic" = if ¬logic.isEmpty then
        some (.object (logic.entries.map fun entry ↦ (entry.1, entry.2.toJson))) else none by
      simp [found])
    (logic.ofJson_entries setting) OrderedMap.eq_empty

theorem Form.ofJson_toJson (setting : Setting) (form : Form) :
    ofJson setting form.toJson = .ok form := by
  unfold ofJson toJson
  apply Record.ofJson_bind_eq_ok
  intro r written
  have name := written.optional_text
    (show Keyed.get? _ "name" = form.name.map Json.text by
      simp [toEntries, Keyed.get?_cons])
  have title := written.optional_text
    (show Keyed.get? _ "title" = form.title.map Json.text by
      simp [toEntries, Keyed.get?_cons])
  have fields : r.optional "fields" .empty (fun part _ ↦ Fields.ofJson setting part) = _ :=
    written.given (Fields.ofJson setting)
      (show Keyed.get? _ "fields" = some form.fields.toJson by simp [toEntries, Keyed.get?_cons])
      (form.fields.ofJson_toJson setting)
  have annexes := written.unlessEmpty
    (fun part ↦ items part fun annex _ ↦ Annex.ofJson setting annex)
    (show Keyed.get? _ "annexes" = if ¬form.annexes.isEmpty then
        some (.array (form.annexes.map Annex.toJson)) else none by
      simp [toEntries, Keyed.get?_cons])
    (items_eq_ok fun annex _ ↦ annex.ofJson_toJson setting) List.isEmpty_iff.1
  have logic := form.logic.optional_eq_ok setting written (by simp [toEntries, Keyed.get?_cons])
  rw [name, title, fields, annexes, logic]
  exact written.close form

namespace Enclosure

theorem get?_rest (enclosure : Enclosure) {key : String} (own : key = "kind" ∨ key = "name") :
    Keyed.get? enclosure.rest.entries key = none := by
  apply Option.not_isSome_iff_eq_none.1
  intro found
  have free := enclosure.plain key (Keyed.get?_isSome_iff.1 found)
  exact own.elim free.1 free.2

theorem ofJson_toEntries (enclosure : Enclosure) :
    ofJson (.object enclosure.toEntries) = .ok enclosure := by
  obtain ⟨name, rest, plain⟩ := enclosure
  have unnamed : Keyed.get? rest.entries "name" = none := get?_rest ⟨name, rest, plain⟩ (.inr rfl)
  have named : Keyed.get? (toEntries ⟨name, rest, plain⟩) "name" = name.map .text := by
    simp [toEntries, unnamed]
  have others : (toEntries ⟨name, rest, plain⟩).filter isPlain = rest.entries := by
    have no_name : (Json.entry? "name" name .text).filter isPlain = [] := by
      cases name <;> rfl
    rw [toEntries, List.filter_append, no_name, List.nil_append]
    apply List.filter_eq_self.2
    intro entry member
    have free := plain entry.1 (List.mem_map_of_mem member)
    simp [isPlain, free]
  cases name with
  | none =>
    simp only [ofJson, named, others, OrderedMap.ofList_entries]
    rfl
  | some name =>
    simp only [ofJson, named, others, OrderedMap.ofList_entries]
    rfl

end Enclosure

namespace Item

theorem lookup_name (kind : ItemKind) : taggedType.cases.lookup kind.name = some kind := by
  cases kind <;> decide +kernel

theorem get?_members_type (item : Item) : Keyed.get? item.members "type" = none := by
  cases item <;> simp [members, target, Keyed.get?_cons]

/-- An item is read if the artifact in it is. -/
theorem ofJson_itemToJson {read : Json → Except Fault Artifact} (item : Item)
    (h : ∀ key condition artifact, item = .inline key condition artifact →
      read artifact.toJson = .ok artifact) :
    ofJson (Artifact.itemToJson item) (fun part _ ↦ read part) = .ok item := by
  have tagged : Artifact.itemToJson item =
      .object ((taggedType.key, .text item.kind.name) :: item.members) :=
    Artifact.itemToJson_eq item
  unfold ofJson
  rw [tagged]
  apply TaggedType.split_bind_eq_ok (lookup_name item.kind) item.get?_members_type
  intro smaller
  apply Record.ofJson_bind_eq_ok
  intro given spells
  have written := spells.widen smaller
  dsimp only
  generalize given.widen _ = r at written ⊢
  have key_read := written.required text
    (show Keyed.get? _ "key" = some (.text item.key) by simp [members, Keyed.get?_cons]) rfl
  have condition_read := written.optional_condition
    (show Keyed.get? _ "include" = item.condition.map Condition.toJson by
      cases item <;> simp [members, target, Keyed.get?_cons])
  have target : Keyed.get? item.members item.target.1 = some item.target.2 := by
    cases item <;> simp [members, target, Keyed.get?_cons]
  rw [key_read, condition_read]
  cases item with
  | inline key condition artifact =>
    have artifact_read : r.required "artifact" (fun part _ ↦ read part) = .ok artifact :=
      written.required read target (h key condition artifact rfl)
    change r.close (Item.inline <$> .ok key <*> .ok condition <*>
      r.required "artifact" fun part _ ↦ read part) = _
    rw [artifact_read]
    exact written.close _
  | path key condition file =>
    have path_read : r.required "path" (fun part _ ↦ text part) = .ok file :=
      written.required text target rfl
    change r.close (Item.path <$> .ok key <*> .ok condition <*>
      r.required "path" fun part _ ↦ text part) = _
    rw [path_read]
    exact written.close _
  | registry key condition slug =>
    have slug_read : r.required "slug" (fun part _ ↦ text part) = .ok slug :=
      written.required text target rfl
    change r.close (Item.registry <$> .ok key <*> .ok condition <*>
      r.required "slug" fun part _ ↦ text part) = _
    rw [slug_read]
    exact written.close _

end Item

namespace Artifact

theorem lookup_name (kind : ArtifactKind) : taggedType.cases.lookup kind.name = some kind := by
  cases kind <;> decide +kernel

theorem get?_members_kind (artifact : Artifact) : Keyed.get? artifact.members "kind" = none := by
  cases artifact with
  | form f => simp [members, Form.toEntries, Keyed.get?_cons]
  | bundle name title logic contents => simp [members, Keyed.get?_cons]
  | document enclosure => simp [members, Enclosure.toEntries, enclosure.get?_rest (.inl rfl)]
  | checklist enclosure => simp [members, Enclosure.toEntries, enclosure.get?_rest (.inl rfl)]

theorem toJson_eq_tagged (artifact : Artifact) : artifact.toJson =
    .object ((taggedType.key, .text artifact.kind.name) :: artifact.members) :=
  artifact.toJson_eq

mutual

theorem ofTagged_toJson (setting : Setting) : ∀ artifact : Artifact,
    ofTagged setting artifact.toJson = .ok artifact
  | .form f => by
    rw [ofTagged, toJson_eq_tagged]
    apply TaggedType.split_bind_eq_ok (lookup_name .form) (get?_members_kind (.form f))
    intro smaller
    exact congrArg (form <$> ·) (f.ofJson_toJson .embedded)
  | .bundle name title logic contents => by
    have inner := forall_ofTagged_toJson contents
    have tagged : toJson (.bundle name title logic contents) =
        .object ((taggedType.key, .text ArtifactKind.bundle.name) ::
          members (.bundle name title logic contents)) :=
      toJson_eq_tagged _
    rw [ofTagged, tagged]
    apply TaggedType.split_bind_eq_ok (lookup_name .bundle) (get?_members_kind _)
    intro smaller
    apply Record.ofJson_bind_eq_ok
    intro given spells
    have written := spells.widen smaller
    dsimp only
    generalize given.widen _ = r at written ⊢
    have name_read := written.optional_text
      (show Keyed.get? _ "name" = name.map Json.text by simp [members, Keyed.get?_cons])
    have title_read := written.optional_text
      (show Keyed.get? _ "title" = title.map Json.text by simp [members, Keyed.get?_cons])
    have logic_read :=
      logic.optional_eq_ok .embedded written (by simp [members, Keyed.get?_cons])
    have contents_read : r.optional "contents" [] (fun part _ ↦ items part fun item _ ↦
        Item.ofJson item fun artifact _ ↦ ofTagged .embedded artifact) = .ok contents :=
      written.given _ (show Keyed.get? _ "contents" = some (.array (contents.map itemToJson)) by
        simp [members, Keyed.get?_cons, itemsToJson_eq_map]) (items_eq_ok inner)
    rw [name_read, title_read, logic_read, contents_read]
    exact written.close _
  | .document enclosure => by
    rw [ofTagged, toJson_eq_tagged]
    apply TaggedType.split_bind_eq_ok (lookup_name .document) (get?_members_kind _)
    intro smaller
    exact congrArg (document <$> ·) enclosure.ofJson_toEntries
  | .checklist enclosure => by
    rw [ofTagged, toJson_eq_tagged]
    apply TaggedType.split_bind_eq_ok (lookup_name .checklist) (get?_members_kind _)
    intro smaller
    exact congrArg (checklist <$> ·) enclosure.ofJson_toEntries

theorem forall_ofTagged_toJson : ∀ items : List Item, ∀ item ∈ items,
    Item.ofJson (itemToJson item) (fun artifact _ ↦ ofTagged .embedded artifact) = .ok item
  | [] => by
    rintro _ ⟨⟩
  | item :: rest => by
    rw [List.forall_mem_cons]
    refine ⟨?_, forall_ofTagged_toJson rest⟩
    apply Item.ofJson_itemToJson
    rintro key condition artifact rfl
    exact ofTagged_toJson .embedded artifact

end

theorem ofJson_toJson (artifact : Artifact) : ofJson artifact.toJson = .ok artifact := by
  rw [toJson_eq_tagged, ofJson, ← toJson_eq_tagged, ofTagged_toJson]

/-- An artifact that has been read, in whatever spelling, is written in a spelling that is read as
the same artifact again, with the same order of everything in it. So reading and writing twice
leaves no more to change. -/
theorem read_again (value : Json) (artifact : Artifact) (read : ofJson value = .ok artifact) :
    ofJson artifact.toJson = .ok artifact ∧
    ∀ written, toJson <$> ofJson value = .ok written →
      toJson <$> ofJson written = .ok written := by
  refine ⟨ofJson_toJson artifact, ?_⟩
  intro written writes
  have same : artifact.toJson = written := by
    rw [read] at writes
    exact Except.ok.inj writes
  rw [← same, ofJson_toJson]
  rfl

/-- A bundle with its tag last, an item and a form written as arrays, a tag given by its place, an
unknown type written as an object, nulls, and a checklist with an entry of its own. -/
theorem read_again_of_each_spelling :
    let checklist : Json := .object
      [("status", .array [.null]), ("kind", .text "checklist"), ("name", .null)]
    let field : Json := .array [.object [("signature", .null)], .null, .null, .boolean true]
    let form : Json := .array [.text "form", .text "intake", .null, .object [("name", field)]]
    let value : Json := .object
      [("contents", .array
        [.array [.natural 0, .text "first", .null, checklist],
          .object [("key", .text "second"), ("type", .text "path"), ("path", .text "second.json"),
            ("unknown", .null)],
          .object [("artifact", form), ("key", .text "third"), ("type", .text "inline")]]),
        ("logic", .object []), ("title", .null), ("kind", .text "bundle")]
    let artifact : Artifact := .bundle none none .empty
      [.inline "first" none
          (.checklist ⟨none, .ofList [("status", .array [.null])], by decide +kernel⟩),
        .path "second" none "second.json",
        .inline "third" none (.form ⟨some "intake", none,
          .ofEntries [("name", ⟨.other, none, none, some (.literal true), none, []⟩)], [], .empty⟩)]
    ofJson value = .ok artifact ∧ ofJson artifact.toJson = .ok artifact ∧
      toJson <$> ofJson value = .ok artifact.toJson ∧
      toJson <$> ofJson artifact.toJson = .ok artifact.toJson := by
  intro checklist field form value artifact
  have read : ofJson value = .ok artifact := by with_unfolding_all rfl
  have written : toJson <$> ofJson value = .ok artifact.toJson := by rw [read]; rfl
  have law := read_again value artifact read
  exact ⟨read, law.1, written, law.2 artifact.toJson written⟩

end Artifact

end FormRules
