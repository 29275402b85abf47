import FormRules.Artifact.Basic
import FormRules.Decode.Tagged

/-!
# Reading artifacts

Artifacts out of JSON values. Unknown keys are ignored, and so is the order of the members of a
record, while fields, rules and properties keep the order in which they are written.
-/

namespace FormRules

open Decode

namespace FieldType

def ofJson (setting : Setting) : Json → Except Fault FieldType :=
  Decode.caseName setting fun name ↦ .ok (ofName name)

end FieldType

/-- A condition, or null for none. -/
def Condition.ofJson? : Json → Except Fault (Option Condition)
  | .null => .ok none
  | .boolean value => .ok (some (.literal value))
  | .text text => .ok (some (.expression text))
  | _ => .error (.noAlternative "CondExpr")

namespace Field

def recordType : RecordType :=
  ⟨"struct Field", ["type", "label", "description", "required", "visible", "fields"]⟩

def ofJson (setting : Setting) (value : Json) : Except Fault Field := do
  let r ← Record.ofJson recordType setting value
  r.close (Field.mk <$> r.required "type" (fun part _ ↦ FieldType.ofJson setting part)
    <*> r.optional "label" none (fun part _ ↦ Decode.text? part)
    <*> r.optional "description" none (fun part _ ↦ Decode.text? part)
    <*> r.optional "required" none (fun part _ ↦ Condition.ofJson? part)
    <*> r.optional "visible" none (fun part _ ↦ Condition.ofJson? part)
    <*> r.optional "fields" []
      (fun part _ ↦ Decode.entries part fun field _ ↦ Field.ofJson setting field))
termination_by value.size

end Field

def Fields.ofJson (setting : Setting) (value : Json) : Except Fault Fields :=
  Fields.ofEntries <$> Decode.entries value fun field _ ↦ Field.ofJson setting field

namespace Annex

def recordType : RecordType := ⟨"struct Annex", ["id", "title", "required", "visible"]⟩

def ofJson (setting : Setting) (value : Json) : Except Fault Annex := do
  let r ← Record.ofJson recordType setting value
  r.close (Annex.mk <$> r.required "id" (fun part _ ↦ Decode.text part)
    <*> r.optional "title" none (fun part _ ↦ Decode.text? part)
    <*> r.optional "required" none (fun part _ ↦ Condition.ofJson? part)
    <*> r.optional "visible" none (fun part _ ↦ Condition.ofJson? part))

end Annex

def LogicValue.ofJson (value : Json) : Except Fault LogicValue :=
  match value with
  | .boolean value => .ok (.literal value)
  | .text text => .ok (.expression text)
  | value =>
    match Decode.entries value fun part _ ↦ Decode.text part with
    | .ok properties => .ok (.object (.ofList properties))
    | .error _ => .error (.noAlternative "LogicValue")

namespace LogicEntry

def recordType : RecordType := ⟨"struct LogicEntry", ["type", "label", "description", "value"]⟩

def ofJson (setting : Setting) (value : Json) : Except Fault LogicEntry := do
  let r ← Record.ofJson recordType setting value
  r.close (LogicEntry.mk <$> r.required "type" (fun part _ ↦ FieldType.ofJson setting part)
    <*> r.optional "label" none (fun part _ ↦ Decode.text? part)
    <*> r.optional "description" none (fun part _ ↦ Decode.text? part)
    <*> r.required "value" (fun part _ ↦ LogicValue.ofJson part))

end LogicEntry

def LogicSection.ofJson (setting : Setting) (value : Json) : Except Fault LogicSection :=
  OrderedMap.ofList <$> Decode.entries value fun entry _ ↦ LogicEntry.ofJson setting entry

namespace Form

def recordType : RecordType := ⟨"struct Form", ["name", "title", "fields", "annexes", "logic"]⟩

def ofJson (setting : Setting) (value : Json) : Except Fault Form := do
  let r ← Record.ofJson recordType setting value
  r.close (Form.mk <$> r.optional "name" none (fun part _ ↦ Decode.text? part)
    <*> r.optional "title" none (fun part _ ↦ Decode.text? part)
    <*> r.optional "fields" .empty (fun part _ ↦ Fields.ofJson setting part)
    <*> r.optional "annexes" []
      (fun part _ ↦ Decode.items part fun annex _ ↦ Annex.ofJson setting annex)
    <*> r.optional "logic" .empty (fun part _ ↦ LogicSection.ofJson setting part))

end Form

namespace Enclosure

/-- Whether an entry is one of those without a meaning of their own. -/
def isPlain (entry : String × Json) : Bool := entry.1 ≠ "kind" && entry.1 ≠ "name"

theorem plain_of_mem_keys {entries : List (String × Json)} {key : String}
    (h : key ∈ (OrderedMap.ofList (entries.filter isPlain)).keys) :
    key ≠ "kind" ∧ key ≠ "name" := by
  obtain ⟨entry, member, rfl⟩ := List.mem_map.1 h
  have := (List.mem_filter.1 (Keyed.mem_ofList member)).2
  simpa [isPlain] using this

def ofJson : Json → Except Fault Enclosure
  | .object entries => do
    let name ←
      match Keyed.get? entries "name" with
      | some part => Decode.text? part
      | none => .ok none
    pure ⟨name, .ofList (entries.filter isPlain), fun _ ↦ plain_of_mem_keys⟩
  | value => .error (.kind value.outline (.record "struct OpaqueArtifact"))

end Enclosure

namespace Item

def taggedType : TaggedType ItemKind :=
  ⟨"BundleItem", "type", ItemKind.all.map fun kind ↦ (kind.name, kind)⟩

def recordType : ItemKind → RecordType
  | .inline => ⟨"struct variant BundleItem::Inline", ["key", "include", "artifact"]⟩
  | .path => ⟨"struct variant BundleItem::Path", ["key", "include", "path"]⟩
  | .registry => ⟨"struct variant BundleItem::Registry", ["key", "include", "slug"]⟩

/-- An item, given how to read the artifact in it. -/
def ofJson (value : Json)
    (artifact : (part : Json) → part.size < value.size → Except Fault Artifact) :
    Except Fault Item := do
  let s ← taggedType.split .embedded value
  let r := (← Record.ofJson (recordType s.case) .embedded s.rest).widen s.smaller
  let key := r.required "key" fun part _ ↦ Decode.text part
  let condition := r.optional "include" none fun part _ ↦ Condition.ofJson? part
  match s.case with
  | .inline => r.close (Item.inline <$> key <*> condition <*> r.required "artifact" artifact)
  | .path =>
    r.close (Item.path <$> key <*> condition
      <*> r.required "path" (fun part _ ↦ Decode.text part))
  | .registry =>
    r.close (Item.registry <$> key <*> condition
      <*> r.required "slug" (fun part _ ↦ Decode.text part))

end Item

namespace Artifact

def taggedType : TaggedType ArtifactKind :=
  ⟨"Artifact", "kind", ArtifactKind.all.map fun kind ↦ (kind.name, kind)⟩

def bundleType : RecordType := ⟨"struct Bundle", ["name", "title", "logic", "contents"]⟩

/-- An artifact. The tag of the outermost one is read on its own, all else within it. -/
def ofTagged (setting : Setting) (value : Json) : Except Fault Artifact := do
  let s ← taggedType.split setting value
  match s.case with
  | .form => .form <$> Form.ofJson .embedded s.rest
  | .bundle =>
    let r := (← Record.ofJson bundleType .embedded s.rest).widen s.smaller
    r.close (Artifact.bundle <$> r.optional "name" none (fun part _ ↦ Decode.text? part)
      <*> r.optional "title" none (fun part _ ↦ Decode.text? part)
      <*> r.optional "logic" .empty (fun part _ ↦ LogicSection.ofJson .embedded part)
      <*> r.optional "contents" []
        (fun part _ ↦ Decode.items part fun item _ ↦
          Item.ofJson item fun artifact _ ↦ ofTagged .embedded artifact))
  | .document => .document <$> Enclosure.ofJson s.rest
  | .checklist => .checklist <$> Enclosure.ofJson s.rest
termination_by value.size

inductive Fault where
  | notAnObject (found : Json.Outline)
  | malformed (fault : Decode.Fault)
deriving DecidableEq, Repr

def Fault.message : Fault → String
  | .notAnObject found => s!"artifact must be a JSON object, got {found.kind}"
  | .malformed fault => s!"invalid artifact: {fault.message}"

def ofJson (value : Json) : Except Fault Artifact :=
  match value with
  | .object _ =>
    match ofTagged .alone value with
    | .ok artifact => .ok artifact
    | .error fault => .error (.malformed fault)
  | value => .error (.notAnObject value.outline)

end Artifact

end FormRules
