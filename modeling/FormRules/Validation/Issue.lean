import FormRules.Artifact.Encode
import FormRules.Decode.Record
import FormRules.Expr.SyntaxError

/-!
# Issues

What can be wrong with the rules and conditions of an artifact, and where. The wording of a finding
lives here; an issue that is read from data keeps the wording that it comes with.
-/

namespace FormRules

inductive IssueCode where
  | syntaxError
  | unknownVariable
  | circularDependency
  | booleanContext
  | typeMismatch
  | unknownProperty
  | nestingTooDeep
deriving DecidableEq, Repr

namespace IssueCode

def name : IssueCode → String
  | .syntaxError => "syntax_error"
  | .unknownVariable => "unknown_variable"
  | .circularDependency => "circular_dependency"
  | .booleanContext => "boolean_context"
  | .typeMismatch => "type_mismatch"
  | .unknownProperty => "unknown_property"
  | .nestingTooDeep => "nesting_too_deep"

def all : List IssueCode :=
  [.syntaxError, .unknownVariable, .circularDependency, .booleanContext, .typeMismatch,
    .unknownProperty, .nestingTooDeep]

def ofName? (name : String) : Option IssueCode := all.find? fun code ↦ code.name = name

def ofJson : Json → Except Decode.Fault IssueCode :=
  Decode.caseName .alone fun found ↦
    match ofName? found with
    | some code => .ok code
    | none => .error (.unknownCase found (all.map name))

end IssueCode

inductive PathSegment where
  | key (name : String)
  | index (place : Nat)
deriving DecidableEq, Repr

namespace PathSegment

def describe : PathSegment → String
  | .key name => name
  | .index place => toString place

def toJson : PathSegment → Json
  | .key name => .text name
  | .index place => .natural place

def ofJson : Json → Except Decode.Fault PathSegment
  | .text name => .ok (.key name)
  | .number (.integer (.ofNat place)) => .ok (.index place)
  | _ => .error (.noAlternative "PathSegment")

end PathSegment

abbrev IssuePath := List PathSegment

inductive Finding where
  | syntaxError (error : SyntaxError)
  | unknownVariable (name : String)
  | circularDependency
  /-- A condition that is certainly no truth value. -/
  | notBoolean (found : ValueType)
  | mismatch (declared found : ValueType)
  /-- A truth value where another type is declared. -/
  | booleanLiteral (declared : ValueType)
  | unknownProperty (property : String) (type : FieldType)
  | nestingTooDeep (maxDepth : Nat)
deriving DecidableEq, Repr

namespace Finding

def code : Finding → IssueCode
  | .syntaxError _ => .syntaxError
  | .unknownVariable _ => .unknownVariable
  | .circularDependency => .circularDependency
  | .notBoolean _ => .booleanContext
  | .mismatch _ _ | .booleanLiteral _ => .typeMismatch
  | .unknownProperty _ _ => .unknownProperty
  | .nestingTooDeep _ => .nestingTooDeep

def message : Finding → String
  | .syntaxError error => s!"syntax error: {error.describe}"
  | .unknownVariable name => s!"unknown variable '{name}'"
  | .circularDependency => "circular dependency detected"
  | .notBoolean found =>
    s!"expression must resolve to boolean, but inferred type is {found.name}"
  | .mismatch declared found =>
    s!"declared type is {declared.name}, but inferred type is {found.name}"
  | .booleanLiteral declared =>
    s!"declared type is {declared.name}, but value is a boolean literal"
  | .unknownProperty property type => s!"'{property}' is not a property of type {type.name}"
  | .nestingTooDeep maxDepth => s!"fieldset nesting exceeds the maximum depth of {maxDepth}"

/-- The variable that a finding is about. -/
def variableName? : Finding → Option String
  | .unknownVariable name => some name
  | _ => none

end Finding

structure Issue where
  code : IssueCode
  message : String
  path : IssuePath
  expression : Option String
  variableName : Option String
deriving DecidableEq, Repr

namespace Issue

def ofFinding (finding : Finding) (path : IssuePath) (expression : Option String) : Issue :=
  ⟨finding.code, finding.message, path, expression, finding.variableName?⟩

/-- The path with dots between its steps. -/
def dottedPath (issue : Issue) : String := ".".intercalate (issue.path.map PathSegment.describe)

def describe (issue : Issue) : String := s!"{issue.dottedPath}: {issue.message}"

def toEntries (issue : Issue) : List (String × Json) :=
  [("code", .text issue.code.name), ("message", .text issue.message),
    ("path", .array (issue.path.map PathSegment.toJson))] ++
    Json.entry? "expression" issue.expression .text ++
    Json.entry? "variable" issue.variableName .text

def toJson (issue : Issue) : Json := .object issue.toEntries

def recordType : Decode.RecordType :=
  ⟨"struct ValidationIssue", ["code", "message", "path", "expression", "variable"]⟩

def ofJson (value : Json) : Except Decode.Fault Issue := do
  let r ← Decode.Record.ofJson recordType .alone value
  r.close (Issue.mk <$> r.required "code" (fun part _ ↦ IssueCode.ofJson part)
    <*> r.required "message" (fun part _ ↦ Decode.text part)
    <*> r.required "path"
      (fun part _ ↦ Decode.items part fun segment _ ↦ PathSegment.ofJson segment)
    <*> r.named "expression" none (fun part _ ↦ Decode.text? part)
    <*> r.named "variable" none (fun part _ ↦ Decode.text? part))

end Issue

end FormRules
