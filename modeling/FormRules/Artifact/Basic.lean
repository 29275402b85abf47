import FormRules.Artifact.Field
import FormRules.Artifact.Logic
import FormRules.Json.Basic

/-!
# Artifacts

A form holds fields, annexes and rules. A bundle holds rules and a list of items, each of which is
another artifact or points to one. Documents and checklists have no rules, and all that is known of
them is kept as it is.
-/

namespace FormRules

structure Annex where
  id : String
  title : Option String
  required : Option Condition
  visible : Option Condition
deriving DecidableEq, Repr

structure Form where
  name : Option String
  title : Option String
  fields : Fields
  annexes : List Annex
  logic : LogicSection

namespace Form

def empty : Form := ⟨none, none, .empty, [], .empty⟩

instance : Inhabited Form := ⟨empty⟩

end Form

/-- A document or checklist: its name, and all other entries as they are. -/
structure Enclosure where
  name : Option String
  rest : OrderedMap String Json
  /-- The entries that have a meaning of their own are not among the others. -/
  plain : ∀ key ∈ rest.keys, key ≠ "kind" ∧ key ≠ "name"

mutual

inductive Artifact where
  | form (form : Form)
  | bundle (name title : Option String) (logic : LogicSection) (contents : List Item)
  | document (enclosure : Enclosure)
  | checklist (enclosure : Enclosure)

inductive Item where
  /-- An artifact that is part of the bundle. -/
  | inline (key : String) (condition : Option Condition) (artifact : Artifact)
  | path (key : String) (condition : Option Condition) (path : String)
  | registry (key : String) (condition : Option Condition) (slug : String)

end

inductive ItemKind where
  | inline
  | path
  | registry
deriving DecidableEq, Repr

namespace ItemKind

def name : ItemKind → String
  | .inline => "inline"
  | .path => "path"
  | .registry => "registry"

def all : List ItemKind := [.inline, .path, .registry]

end ItemKind

inductive ArtifactKind where
  | form
  | bundle
  | document
  | checklist
deriving DecidableEq, Repr

namespace ArtifactKind

def name : ArtifactKind → String
  | .form => "form"
  | .bundle => "bundle"
  | .document => "document"
  | .checklist => "checklist"

def all : List ArtifactKind := [.form, .bundle, .document, .checklist]

end ArtifactKind

namespace Item

def kind : Item → ItemKind
  | .inline .. => .inline
  | .path .. => .path
  | .registry .. => .registry

def key : Item → String
  | .inline key _ _ | .path key _ _ | .registry key _ _ => key

def condition : Item → Option Condition
  | .inline _ condition _ | .path _ condition _ | .registry _ condition _ => condition

end Item

namespace Artifact

def kind : Artifact → ArtifactKind
  | .form _ => .form
  | .bundle .. => .bundle
  | .document _ => .document
  | .checklist _ => .checklist

def logic? : Artifact → Option LogicSection
  | .form f => some f.logic
  | .bundle _ _ logic _ => some logic
  | .document _ | .checklist _ => none

def logic (artifact : Artifact) : LogicSection := artifact.logic?.getD .empty

def fields? : Artifact → Option Fields
  | .form f => some f.fields
  | .bundle .. | .document _ | .checklist _ => none

def fields (artifact : Artifact) : Fields := artifact.fields?.getD .empty

end Artifact

end FormRules
