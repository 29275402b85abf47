import FormRules.Proofs.Artifact.Restated
import FormRules.Proofs.Decode.Agreement

/-!
# Reading restated values

An artifact is read from every value that restates one from which it is read. This is shown role by
role: what a value is read as in its role is read of the other value too.
-/

namespace FormRules

open Decode

/-- What is read of a value in some role is read of another one too. -/
def Role.Keeps (role : Role) (value other : Json) : Prop :=
  match role with
  | .plain => other = value
  | .field => ∀ setting, Kept (Field.ofJson setting value) (Field.ofJson setting other)
  | .fields => ∀ setting,
    Kept (Decode.entries value fun field _ ↦ Field.ofJson setting field)
      (Decode.entries other fun field _ ↦ Field.ofJson setting field)
  | .annex => ∀ setting, Kept (Annex.ofJson setting value) (Annex.ofJson setting other)
  | .annexes => ∀ setting,
    Kept (Decode.items value fun annex _ ↦ Annex.ofJson setting annex)
      (Decode.items other fun annex _ ↦ Annex.ofJson setting annex)
  | .rule => ∀ setting, Kept (LogicEntry.ofJson setting value) (LogicEntry.ofJson setting other)
  | .rules => ∀ setting,
    Kept (LogicSection.ofJson setting value) (LogicSection.ofJson setting other)
  | .item =>
    Kept (Item.ofJson value fun artifact _ ↦ Artifact.ofTagged .embedded artifact)
      (Item.ofJson other fun artifact _ ↦ Artifact.ofTagged .embedded artifact)
  | .items =>
    Kept (Decode.items value fun item _ ↦
        Item.ofJson item fun artifact _ ↦ Artifact.ofTagged .embedded artifact)
      (Decode.items other fun item _ ↦
        Item.ofJson item fun artifact _ ↦ Artifact.ofTagged .embedded artifact)
  | .artifact => ∀ setting, Kept (Artifact.ofTagged setting value) (Artifact.ofTagged setting other)

theorem Role.Keeps.refl (role : Role) (value : Json) : role.Keeps value value := by
  cases role with
  | plain => exact Eq.refl value
  | item | items => exact Kept.refl _
  | field | fields | annex | annexes | rule | rules | artifact => exact fun _ ↦ Kept.refl _

theorem kept_of_plain {α : Type} (read : Json → Except Fault α) (value other : Json)
    (same : Role.plain.Keeps value other) : Kept (read value) (read other) := by
  have same : other = value := same
  rw [same]
  exact .refl _

/-- Two values have members that are read alike in their roles. -/
abbrev Role.Members.Alike (members : Role.Members) (names : List String) : Json → Json → Prop :=
  Decode.Alike (fun name ↦ (members.role name).Keeps) names

variable {value other : Json} {setting : Setting}

/-! ## Records -/

theorem Field.kept_ofJson (alike : Role.ofField.Alike Field.recordType.members value other) :
    Kept (Field.ofJson setting value) (Field.ofJson setting other) := by
  rw [Field.ofJson, Field.ofJson]
  refine alike.bind_record fun r r' alike ↦ alike.close ?_
  have type := alike.required "type" (by decide) _ (kept_of_plain (FieldType.ofJson setting))
  have label := alike.optional "label" (by decide) none _ (kept_of_plain Decode.text?)
  have description := alike.optional "description" (by decide) none _ (kept_of_plain Decode.text?)
  have required := alike.optional "required" (by decide) none _ (kept_of_plain Condition.ofJson?)
  have visible := alike.optional "visible" (by decide) none _ (kept_of_plain Condition.ofJson?)
  have fields := alike.optional "fields" (by decide) []
    (fun part ↦ Decode.entries part fun field _ ↦ Field.ofJson setting field)
    fun part other keeps ↦ (show Role.fields.Keeps part other from keeps) setting
  exact (((((type.map Field.mk).seq label).seq description).seq required).seq visible).seq fields

theorem Annex.kept_ofJson (alike : Role.ofAnnex.Alike Annex.recordType.members value other) :
    Kept (Annex.ofJson setting value) (Annex.ofJson setting other) := by
  rw [Annex.ofJson, Annex.ofJson]
  refine alike.bind_record fun r r' alike ↦ alike.close ?_
  have id := alike.required "id" (by decide) _ (kept_of_plain Decode.text)
  have title := alike.optional "title" (by decide) none _ (kept_of_plain Decode.text?)
  have required := alike.optional "required" (by decide) none _ (kept_of_plain Condition.ofJson?)
  have visible := alike.optional "visible" (by decide) none _ (kept_of_plain Condition.ofJson?)
  exact (((id.map Annex.mk).seq title).seq required).seq visible

theorem LogicEntry.kept_ofJson
    (alike : Role.ofRule.Alike LogicEntry.recordType.members value other) :
    Kept (LogicEntry.ofJson setting value) (LogicEntry.ofJson setting other) := by
  rw [LogicEntry.ofJson, LogicEntry.ofJson]
  refine alike.bind_record fun r r' alike ↦ alike.close ?_
  have type := alike.required "type" (by decide) _ (kept_of_plain (FieldType.ofJson setting))
  have label := alike.optional "label" (by decide) none _ (kept_of_plain Decode.text?)
  have description := alike.optional "description" (by decide) none _ (kept_of_plain Decode.text?)
  have value := alike.required "value" (by decide) _ (kept_of_plain LogicValue.ofJson)
  exact (((type.map LogicEntry.mk).seq label).seq description).seq value

theorem Form.kept_ofJson (alike : Role.ofForm.Alike Form.recordType.members value other) :
    Kept (Form.ofJson setting value) (Form.ofJson setting other) := by
  rw [Form.ofJson, Form.ofJson]
  refine alike.bind_record fun r r' alike ↦ alike.close ?_
  have name := alike.optional "name" (by decide) none _ (kept_of_plain Decode.text?)
  have title := alike.optional "title" (by decide) none _ (kept_of_plain Decode.text?)
  have fields := alike.optional "fields" (by decide) .empty (Fields.ofJson setting)
    fun part other keeps ↦ ((show Role.fields.Keeps part other from keeps) setting).map _
  have annexes := alike.optional "annexes" (by decide) []
    (fun part ↦ Decode.items part fun annex _ ↦ Annex.ofJson setting annex)
    fun part other keeps ↦ (show Role.annexes.Keeps part other from keeps) setting
  have logic := alike.optional "logic" (by decide) .empty (LogicSection.ofJson setting)
    fun part other keeps ↦ (show Role.rules.Keeps part other from keeps) setting
  exact ((((name.map Form.mk).seq title).seq fields).seq annexes).seq logic

/-! ## Tagged records -/

/-- However its tag is read, a value has the case that its role tells by. -/
theorem Role.case?_of_split {κ : Type} {type : TaggedType κ}
    {s : TaggedType.Split κ value.size} (split : type.split setting value = .ok s) :
    Role.case? type value = some s.case := by
  suffices ∃ s', type.split .embedded value = .ok s' ∧ s'.case = s.case ∧ s'.rest = s.rest by
    obtain ⟨s', split', case, -⟩ := this
    rw [Role.case?, split']
    exact congrArg some case
  cases value with
  | object entries =>
    obtain ⟨given, written, selected, left⟩ :=
      TaggedType.exists_split_object_iff.1 ⟨s, split, rfl, rfl⟩
    exact TaggedType.exists_split_object_iff.2
      ⟨given, written, TaggedType.tag_embedded selected, left⟩
  | array items =>
    cases items with
    | nil => cases split
    | cons given items =>
      obtain ⟨selected, left⟩ := TaggedType.exists_split_array_iff.1 ⟨s, split, rfl, rfl⟩
      exact TaggedType.exists_split_array_iff.2 ⟨TaggedType.tag_embedded selected, left⟩
  | null | boolean | number | text => cases split

theorem Item.kept_ofJson {kind : ItemKind} (case : Role.case? Item.taggedType value = some kind)
    (alike : (Role.ofItem kind).Alike (Role.ofItem kind).known value other) :
    Role.item.Keeps value other := by
  refine alike.bind_split (fun _ _ same ↦ same) (by cases kind <;> decide)
    fun s s' split same alike ↦ ?_
  obtain rfl : kind = s.case := Option.some.inj (case.symm.trans (Role.case?_of_split split))
  rw [same]
  refine alike.bind_record fun r r' alike ↦ ?_
  have alike := alike.widen s.smaller s'.smaller
  generalize s.case = kind at alike
  have key := alike.required "key" (by cases kind <;> decide) _ (kept_of_plain Decode.text)
  have condition := alike.optional "include" (by cases kind <;> decide) none _
    (kept_of_plain Condition.ofJson?)
  cases kind with
  | inline =>
    have artifact := alike.required "artifact" (by decide) (Artifact.ofTagged .embedded)
      fun part other keeps ↦ (show Role.artifact.Keeps part other from keeps) .embedded
    exact alike.close (((key.map Item.inline).seq condition).seq artifact)
  | path =>
    have path := alike.required "path" (by decide) _ (kept_of_plain Decode.text)
    exact alike.close (((key.map Item.path).seq condition).seq path)
  | registry =>
    have slug := alike.required "slug" (by decide) _ (kept_of_plain Decode.text)
    exact alike.close (((key.map Item.registry).seq condition).seq slug)

theorem Artifact.kept_of_form (case : Role.case? Artifact.taggedType value = some .form)
    (alike : Role.ofForm.Alike Role.ofForm.known value other) :
    Role.artifact.Keeps value other := by
  intro setting
  rw [Artifact.ofTagged, Artifact.ofTagged]
  refine alike.bind_split (fun _ _ same ↦ same) (by decide) fun s s' split same alike ↦ ?_
  obtain form : .form = s.case := Option.some.inj (case.symm.trans (Role.case?_of_split split))
  rw [same, ← form]
  exact (Form.kept_ofJson alike).map Artifact.form

theorem Artifact.kept_of_bundle (case : Role.case? Artifact.taggedType value = some .bundle)
    (alike : Role.ofBundle.Alike Role.ofBundle.known value other) :
    Role.artifact.Keeps value other := by
  intro setting
  rw [Artifact.ofTagged, Artifact.ofTagged]
  refine alike.bind_split (fun _ _ same ↦ same) (by decide) fun s s' split same alike ↦ ?_
  obtain bundle : .bundle = s.case := Option.some.inj (case.symm.trans (Role.case?_of_split split))
  rw [same, ← bundle]
  refine alike.bind_record fun r r' alike ↦ ?_
  have alike := alike.widen s.smaller s'.smaller
  refine alike.close ?_
  have name := alike.optional "name" (by decide) none _ (kept_of_plain Decode.text?)
  have title := alike.optional "title" (by decide) none _ (kept_of_plain Decode.text?)
  have logic := alike.optional "logic" (by decide) .empty (LogicSection.ofJson .embedded)
    fun part other keeps ↦ (show Role.rules.Keeps part other from keeps) .embedded
  have contents := alike.optional "contents" (by decide) []
    (fun part ↦ Decode.items part fun item _ ↦
      Item.ofJson item fun artifact _ ↦ Artifact.ofTagged .embedded artifact)
    fun part other keeps ↦ show Role.items.Keeps part other from keeps
  exact (((name.map Artifact.bundle).seq title).seq logic).seq contents

/-! ## Restated values -/

namespace Role.Keeps

variable {role inner : Role} {entries others : List (String × Json)}

/-- Alike values in the role of a record are read alike. -/
theorem of_record {members : Role.Members} (layout : role.layout value = .record members)
    (alike : members.Alike members.known value other) : role.Keeps value other := by
  cases role with
  | plain | fields | annexes | rules | items => cases layout
  | field =>
    obtain rfl := Layout.record.inj layout
    exact fun _ ↦ Field.kept_ofJson alike
  | annex =>
    obtain rfl := Layout.record.inj layout
    exact fun _ ↦ Annex.kept_ofJson alike
  | rule =>
    obtain rfl := Layout.record.inj layout
    exact fun _ ↦ LogicEntry.kept_ofJson alike
  | item =>
    rw [Role.layout] at layout
    split at layout
    · next case =>
      obtain rfl := Layout.record.inj layout
      exact Item.kept_ofJson case alike
    · cases layout
  | artifact =>
    rw [Role.layout] at layout
    split at layout
    · next case =>
      obtain rfl := Layout.record.inj layout
      exact Artifact.kept_of_form case alike
    · next case =>
      obtain rfl := Layout.record.inj layout
      exact Artifact.kept_of_bundle case alike
    all_goals cases layout

theorem of_keyed (layout : role.layout (.object entries) = .keyed inner)
    (parts : List.Forall₂ (fun entry other ↦ other.1 = entry.1 ∧ inner.Keeps entry.2 other.2)
      entries others) : role.Keeps (.object entries) (.object others) := by
  cases role with
  | fields =>
    obtain rfl := Layout.keyed.inj layout
    exact fun setting ↦ kept_entries (parts.imp fun _ _ ⟨same_key, keeps⟩ ↦
      ⟨same_key, (show Role.field.Keeps _ _ from keeps) setting⟩)
  | rules =>
    obtain rfl := Layout.keyed.inj layout
    exact fun setting ↦ (kept_entries (parts.imp fun _ _ ⟨same_key, keeps⟩ ↦
      ⟨same_key, (show Role.rule.Keeps _ _ from keeps) setting⟩)).map _
  | item | artifact =>
    rw [Role.layout] at layout
    split at layout <;> cases layout
  | plain | field | annex | annexes | rule | items => cases layout

theorem of_listed {items others : List Json} (layout : role.layout (.array items) = .listed inner)
    (parts : List.Forall₂ inner.Keeps items others) :
    role.Keeps (.array items) (.array others) := by
  cases role with
  | annexes =>
    obtain rfl := Layout.listed.inj layout
    exact fun setting ↦
      kept_items (parts.imp fun _ _ keeps ↦ (show Role.annex.Keeps _ _ from keeps) setting)
  | items =>
    obtain rfl := Layout.listed.inj layout
    exact kept_items (parts.imp fun _ _ keeps ↦ show Role.item.Keeps _ _ from keeps)
  | item | artifact =>
    rw [Role.layout] at layout
    split at layout <;> cases layout
  | plain | field | fields | annex | rule | rules => cases layout

end Role.Keeps

-- By induction on how a value is restated; each layout passes on what is known of its parts.
mutual

theorem Restated.keeps : ∀ {role : Role} {value other : Json}, Restated role value other →
    role.Keeps value other
  | role, value, _, .same => .refl role value
  | _, _, _, .keyed layout parts => .of_keyed layout parts.keeps
  | _, _, _, .listed layout parts => .of_listed layout parts.keeps
  | _, _, _, .object layout parts unknown arranged distinct => by
    refine .of_record layout (.object fun name mem ↦ ?_)
    -- Nothing that is added or moved is found under a key that the record knows.
    have fresh : name ∉ Keyed.keys _ := fun found ↦
      have ⟨entry, further, same⟩ := List.mem_map.1 found
      unknown entry further (same ▸ mem)
    rw [Keyed.get?_of_arranged arranged distinct fresh]
    exact Keyed.get?_rel (R := fun name ↦ (Role.Members.role _ name).Keeps) parts.keeps name
  | _, _, _, .array layout long parts => .of_record layout (.array long parts.keeps)

theorem RestatedEntries.keeps : ∀ {role : String → Role} {entries others : List (String × Json)},
    RestatedEntries role entries others →
      List.Forall₂ (fun entry other ↦ other.1 = entry.1 ∧ (role entry.1).Keeps entry.2 other.2)
        entries others
  | _, _, _, .nil => .nil
  | _, _, _, .cons first more => .cons ⟨rfl, first.keeps⟩ more.keeps

theorem RestatedItems.keeps : ∀ {role : Role} {items others : List Json},
    RestatedItems role items others → List.Forall₂ role.Keeps items others
  | _, _, _, .nil => .nil
  | _, _, _, .cons first more => .cons first.keeps more.keeps

end

namespace Artifact

/-- An artifact is read the same from every value that restates the one it was read from: further
unknown keys and another order of the entries make no difference to a record at any depth. -/
theorem ofJson_of_restated (value other : Json) (artifact : Artifact)
    (restated : Restated .artifact value other) (read : ofJson value = .ok artifact) :
    ofJson other = .ok artifact := by
  have keeps : Kept (ofTagged .alone value) (ofTagged .alone other) := restated.keeps .alone
  cases value with
  | object entries =>
    obtain ⟨others, rfl⟩ : ∃ others, other = .object others := by
      cases restated <;> exact ⟨_, rfl⟩
    rw [ofJson] at read ⊢
    cases tagged : ofTagged .alone (.object entries) with
    | error fault =>
      rw [tagged] at read
      cases read
    | ok found =>
      rw [tagged] at read
      rw [keeps found tagged]
      exact read
  | null | boolean | number | text | array => cases read

/-- A bundle with a form in it, where every record is written backwards with a note in it. -/
theorem ofJson_of_restated_with_notes :
    let note : String × Json := ("note", .array [.null])
    let field : List (String × Json) := [("type", .text "text"), ("required", .boolean true)]
    let outer (field : Json) : List (String × Json) :=
      [("type", .text "fieldset"), ("fields", .object [("name", field), ("age", field)])]
    let annex : List (String × Json) := [("id", .text "proof"), ("title", .null)]
    let rule : List (String × Json) := [("type", .text "boolean"), ("value", .text "name")]
    let form (outer annex rule : Json) : List (String × Json) :=
      [("kind", .text "form"), ("fields", .object [("person", outer)]),
        ("annexes", .array [annex]), ("logic", .object [("named", rule)])]
    let item (form : Json) : List (String × Json) :=
      [("type", .text "inline"), ("key", .text "first"), ("artifact", form)]
    let bundle (item : Json) : List (String × Json) :=
      [("kind", .text "bundle"), ("contents", .array [item])]
    let plain (record : List (String × Json)) : Json := .object record
    let noted (record : List (String × Json)) : Json := .object (record ++ [note]).reverse
    let write (record : List (String × Json) → Json) : Json :=
      record (bundle (record (item (record
        (form (record (outer (record field))) (record annex) (record rule))))))
    let text : Field := ⟨.text, none, none, some (.literal true), none, []⟩
    let person : Field := ⟨.fieldset, none, none, none, none, [("name", text), ("age", text)]⟩
    let artifact : Artifact := .bundle none none .empty
      [.inline "first" none (.form ⟨none, none,
        .ofEntries [("person", person)], [⟨"proof", none, none, none⟩],
        .ofList [("named", ⟨.boolean, none, none, .expression "name"⟩)]⟩)]
    Restated .artifact (write plain) (write noted) ∧ ofJson (write plain) = .ok artifact ∧
      ofJson (write noted) = .ok artifact := by
  intro note field outer annex rule form item bundle plain noted write text person artifact
  -- What is left for each record is to restate the values under its keys.
  have noted_of {role : Role} (members : Role.Members) {record restated : List (String × Json)}
      (layout : role.layout (.object record) = .record members)
      (parts : RestatedEntries members.role record restated) (unknown : "note" ∉ members.known)
      (distinct : (Keyed.keys (restated ++ [note]).reverse).Nodup) :
      Restated role (.object record) (noted restated) :=
    .object layout parts (fun entry mem ↦ by rwa [List.mem_singleton.1 mem])
      (List.reverse_perm _) distinct
  have field_noted : Restated .field (plain field) (noted field) :=
    noted_of Role.ofField rfl (.cons .same (.cons .same .nil)) (by decide) (by decide)
  have outer_noted {inner inner' : Json} (inner_noted : Restated .field inner inner') :
      Restated .field (plain (outer inner)) (noted (outer inner')) :=
    noted_of Role.ofField rfl
      (.cons .same (.cons (.keyed rfl (.cons inner_noted (.cons inner_noted .nil))) .nil))
      (by decide) (by simp [Keyed.keys, outer, note])
  have annex_noted : Restated .annex (plain annex) (noted annex) :=
    noted_of Role.ofAnnex rfl (.cons .same (.cons .same .nil)) (by decide) (by decide)
  have rule_noted : Restated .rule (plain rule) (noted rule) :=
    noted_of Role.ofRule rfl (.cons .same (.cons .same .nil)) (by decide) (by decide)
  have form_noted {inner inner' : Json} (inner_noted : Restated .field inner inner') :
      Restated .artifact (plain (form inner (plain annex) (plain rule)))
        (noted (form inner' (noted annex) (noted rule))) :=
    noted_of Role.ofForm rfl
      (.cons .same (.cons (.keyed rfl (.cons inner_noted .nil)) (.cons
        (.listed rfl (.cons annex_noted .nil)) (.cons (.keyed rfl (.cons rule_noted .nil)) .nil))))
      (by decide) (by simp [Keyed.keys, form, note])
  have item_noted {inner inner' : Json} (inner_noted : Restated .artifact inner inner') :
      Restated .item (plain (item inner)) (noted (item inner')) :=
    noted_of (Role.ofItem .inline) rfl (.cons .same (.cons .same (.cons inner_noted .nil)))
      (by decide) (by simp [Keyed.keys, item, note])
  have bundle_noted {inner inner' : Json} (inner_noted : Restated .item inner inner') :
      Restated .artifact (plain (bundle inner)) (noted (bundle inner')) :=
    noted_of Role.ofBundle rfl
      (.cons .same (.cons (.listed rfl (.cons inner_noted .nil)) .nil))
      (by decide) (by simp [Keyed.keys, bundle, note])
  have restated : Restated .artifact (write plain) (write noted) :=
    bundle_noted (item_noted (form_noted (outer_noted field_noted)))
  have read : ofJson (write plain) = .ok artifact := by with_unfolding_all rfl
  exact ⟨restated, read, ofJson_of_restated _ _ artifact restated read⟩

end Artifact

end FormRules
