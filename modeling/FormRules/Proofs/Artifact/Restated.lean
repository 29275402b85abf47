import FormRules.Artifact.Decode

/-!
# Restated values

A value restates another one if it differs only in what reading an artifact passes over: in the
order of the entries of records and in further entries under keys that a record does not know, at
any depth. Maps keep their entries and arrays their elements, each in its order, and a document or
checklist stays as it is.
-/

namespace FormRules

open Decode

/-- What a value within an artifact is read as. -/
inductive Role where
  /-- A value without records in it. -/
  | plain
  | field
  | fields
  | annex
  | annexes
  | rule
  | rules
  | item
  | items
  | artifact
deriving DecidableEq, Repr

namespace Role

/-- The keys that a record knows, its tag among them, and what the values under them are read as. An
array has the values in the order of these keys. -/
structure Members where
  known : List String
  role : String → Role

/-- Which parts of a value are read on their own. -/
inductive Layout where
  | whole
  /-- The entries of an object under all its keys. -/
  | keyed (inner : Role)
  /-- The elements of an array. -/
  | listed (inner : Role)
  | record (members : Members)

/-- The case that the tag of a value selects. -/
def case? {κ : Type} (type : TaggedType κ) (value : Json) : Option κ :=
  (type.split .embedded value).toOption.map TaggedType.Split.case

def ofField : Members := ⟨Field.recordType.members, fun
  | "fields" => .fields
  | _ => .plain⟩

def ofAnnex : Members := ⟨Annex.recordType.members, fun _ ↦ .plain⟩

def ofRule : Members := ⟨LogicEntry.recordType.members, fun _ ↦ .plain⟩

def ofItem (kind : ItemKind) : Members :=
  ⟨Item.taggedType.key :: (Item.recordType kind).members, fun
    | "artifact" => .artifact
    | _ => .plain⟩

def ofForm : Members := ⟨Artifact.taggedType.key :: Form.recordType.members, fun
  | "fields" => .fields
  | "annexes" => .annexes
  | "logic" => .rules
  | _ => .plain⟩

def ofBundle : Members := ⟨Artifact.taggedType.key :: Artifact.bundleType.members, fun
  | "logic" => .rules
  | "contents" => .items
  | _ => .plain⟩

/-- The parts of a value in some role. Where no tag is read, and in documents and checklists, there
are none. -/
def layout (value : Json) : Role → Layout
  | .plain => .whole
  | .field => .record ofField
  | .fields => .keyed .field
  | .annex => .record ofAnnex
  | .annexes => .listed .annex
  | .rule => .record ofRule
  | .rules => .keyed .rule
  | .item =>
    match case? Item.taggedType value with
    | some kind => .record (ofItem kind)
    | none => .whole
  | .items => .listed .item
  | .artifact =>
    match case? Artifact.taggedType value with
    | some .form => .record ofForm
    | some .bundle => .record ofBundle
    | some .document | some .checklist | none => .whole

end Role

mutual

/-- A value in some role and another value that restates it. -/
inductive Restated : Role → Json → Json → Prop
  | same {role : Role} {value : Json} : Restated role value value
  | keyed {role inner : Role} {entries others : List (String × Json)}
      (layout : role.layout (.object entries) = .keyed inner)
      (parts : RestatedEntries (fun _ ↦ inner) entries others) :
      Restated role (.object entries) (.object others)
  | listed {role inner : Role} {items others : List Json}
      (layout : role.layout (.array items) = .listed inner)
      (parts : RestatedItems inner items others) : Restated role (.array items) (.array others)
  /-- The entries of a record are restated, others under unknown keys are added, and all are
  arranged anew. As in every object that is read from text, no key is repeated. -/
  | object {role : Role} {members : Role.Members}
      {entries restated further others : List (String × Json)}
      (layout : role.layout (.object entries) = .record members)
      (parts : RestatedEntries members.role entries restated)
      (unknown : ∀ entry ∈ further, entry.1 ∉ members.known)
      (arranged : others.Perm (restated ++ further)) (distinct : (Keyed.keys others).Nodup) :
      Restated role (.object entries) (.object others)
  | array {role : Role} {members : Role.Members} {items others : List Json}
      (layout : role.layout (.array items) = .record members)
      (long : others.length = items.length)
      (parts : RestatedEntries members.role (members.known.zip items)
        (members.known.zip others)) : Restated role (.array items) (.array others)

/-- Entries and others that restate them under the same keys, in roles that the keys tell. -/
inductive RestatedEntries :
    (String → Role) → List (String × Json) → List (String × Json) → Prop
  | nil {role : String → Role} : RestatedEntries role [] []
  | cons {role : String → Role} {name : String} {value other : Json}
      {rest others : List (String × Json)} (first : Restated (role name) value other)
      (more : RestatedEntries role rest others) :
      RestatedEntries role ((name, value) :: rest) ((name, other) :: others)

inductive RestatedItems : Role → List Json → List Json → Prop
  | nil {role : Role} : RestatedItems role [] []
  | cons {role : Role} {value other : Json} {rest others : List Json}
      (first : Restated role value other) (more : RestatedItems role rest others) :
      RestatedItems role (value :: rest) (other :: others)

end

end FormRules
