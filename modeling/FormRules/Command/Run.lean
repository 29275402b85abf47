import FormRules.Command.Arguments
import FormRules.Expr.Encode
import FormRules.Expr.Render
import FormRules.Json.Read
import FormRules.Json.Write
import FormRules.Validation.Artifact
import FormRules.Validation.Config

/-!
# Running tasks

What a task writes and with which code it ends, as a function of the files. Code zero means that all
is well, one that issues or a syntax error were found, and two that something could not be read.
-/

namespace FormRules.Command

inductive FileFault where
  | missing
  | denied
  | directory
  | encoding
  | other (description : String)
deriving DecidableEq, Repr

def FileFault.message : FileFault → String
  | .missing => "No such file or directory (os error 2)"
  | .denied => "Permission denied (os error 13)"
  | .directory => "Is a directory (os error 21)"
  | .encoding => "stream did not contain valid UTF-8"
  | .other description => description

abbrev Files := String → Except FileFault String

inductive Failure where
  | unreadableConfig (file : String) (fault : FileFault)
  | malformedConfig (file : String)
  | unreadableFile (file : String) (fault : FileFault)
  | malformedJson (file : String)
  | noArtifact (file : String) (fault : Artifact.Fault)
  | syntaxError (error : SyntaxError)
deriving DecidableEq, Repr

namespace Failure

def message : Failure → String
  | .unreadableConfig file fault => s!"error reading config '{file}': {fault.message}"
  | .malformedConfig file => s!"error parsing config '{file}': not a valid configuration"
  | .unreadableFile file fault => s!"error reading file '{file}': {fault.message}"
  | .malformedJson file => s!"error parsing JSON in '{file}': not a JSON value"
  | .noArtifact file fault => s!"error in '{file}': {fault.message}"
  | .syntaxError error => s!"syntax error: {error.describe}"

def exitCode : Failure → Nat
  | .syntaxError _ => 1
  | _ => 2

end Failure

structure Outcome where
  exitCode : Nat
  stdout : String
  stderr : String
deriving DecidableEq, Repr

namespace Outcome

def success (stdout : String) : Outcome := ⟨0, stdout, ""⟩

def failure (format : Format) (quiet : Bool) (failure : Failure) : Outcome :=
  let line :=
    match format with
    | .text => failure.message
    | .json => (Json.object [("error", .text failure.message)]).compact
  ⟨failure.exitCode, "", if quiet then "" else line ++ "\n"⟩

end Outcome

def loadOptions (files : Files) (config : Option String) (firstError : Bool) :
    Except Failure Options := do
  let options ←
    match config with
    | none => pure {}
    | some file =>
      match files file with
      | .error fault => throw (.unreadableConfig file fault)
      | .ok text =>
        match Options.ofConfig? text with
        | none => throw (.malformedConfig file)
        | some options => pure options
  return if firstError then { options with collectAllErrors := false } else options

def loadJson (files : Files) (file : String) : Except Failure Json :=
  match files file with
  | .error fault => throw (.unreadableFile file fault)
  | .ok text =>
    match Json.read? text with
    | none => throw (.malformedJson file)
    | some value => pure value

def loadArtifact (files : Files) (file : String) : Except Failure Artifact := do
  match Artifact.ofJson (← loadJson files file) with
  | .error fault => throw (.noArtifact file fault)
  | .ok artifact => pure artifact

def findIssues (files : Files) (file : String) (config : Option String) (firstError : Bool) :
    Except Failure (List Issue) := do
  let options ← loadOptions files config firstError
  match (← loadJson files file).validate options with
  | .error fault => throw (.noArtifact file fault)
  | .ok issues => pure issues

def issueLines (issue : Issue) : String :=
  s!"  - {issue.describe} [{issue.code.name}]\n" ++
    match issue.expression with
    | some text => s!"      in: {text}\n"
    | none => ""

/-- A value on many lines, with the end of the last one. -/
def prettyLines (value : Json) : String := value.pretty ++ "\n"

def reportIssues (format : Format) (quiet : Bool) (issues : List Issue) : Outcome :=
  if issues.isEmpty then
    .success
      (if quiet then ""
      else
        match format with
        | .text => "valid\n"
        | .json => (Json.object [("valid", .boolean true)]).compact ++ "\n")
  else
    ⟨1, "",
      if quiet then ""
      else
        match format with
        | .text => s!"invalid: {issues.length} issue(s)\n" ++ String.join (issues.map issueLines)
        | .json =>
          prettyLines (.object
            [("valid", .boolean false), ("issues", .array (issues.map Issue.toJson))])⟩

def listLine (title : String) (names : List String) : String :=
  title ++ ": " ++ ", ".intercalate names ++ "\n"

def showExpression (format : Format) (e : Expr) : String :=
  match format with
  | .text => s!"ast: {e.render}\n" ++ listLine "variables" e.variableNames
  | .json =>
    prettyLines (.object
      [("ast", e.toJson), ("variables", .array (e.variableNames.map .text))])

/-- A syntax error with a mark under its place. -/
def showSyntaxError (format : Format) (text : String) (error : SyntaxError) : String :=
  match format with
  | .text =>
    let mark := String.ofList (List.replicate error.offset ' ')
    s!"syntax error: {error.describe}\n  {text}\n  {mark}^\n"
  | .json =>
    prettyLines (.object
      [("error", .text error.message), ("offset", .natural error.offset)])

def showOrder (format : Format) (order : Order String) : String :=
  match format with
  | .text =>
    listLine "sorted" order.sorted ++
      if order.cyclic.isEmpty then "" else listLine "cyclic" order.cyclic
  | .json =>
    prettyLines (.object
      [("sorted", .array (order.sorted.map .text)),
        ("cyclic_keys", .array (order.cyclic.map .text))])

def showInference (format : Format) (inference : Inference) : String :=
  match format with
  | .text => s!"type: {inference.type.name}\nconfidence: {inference.confidence.name}\n"
  | .json =>
    prettyLines (.object
      [("type", .text inference.type.name), ("confidence", .text inference.confidence.name)])

/-- What an expression is inferred to be in the environment of an artifact. -/
def inferIn (artifact : Artifact) (text : String) : Except SyntaxError Inference :=
  Expr.inferText (Environment.build artifact.fields artifact.logic defaultMaxDepth) text

def Invocation.run (files : Files) (invocation : Invocation) : Outcome :=
  let ⟨format, quiet, task⟩ := invocation
  match task with
  | .check artifact config firstError =>
    match findIssues files artifact config firstError with
    | .error failure => .failure format quiet failure
    | .ok issues => reportIssues format quiet issues
  | .parse text =>
    match Expr.parse text with
    | .error error => ⟨1, "", if quiet then "" else showSyntaxError format text error⟩
    | .ok e => .success (showExpression format e)
  | .order artifact =>
    match loadArtifact files artifact with
    | .error failure => .failure format quiet failure
    | .ok artifact => .success (showOrder format (LogicSection.order artifact.logic))
  | .infer artifact text =>
    match loadArtifact files artifact with
    | .error failure => .failure format quiet failure
    | .ok artifact =>
      match inferIn artifact text with
      | .error error => .failure format quiet (.syntaxError error)
      | .ok inference => .success (showInference format inference)

/-- The files that an invocation reads. -/
def Invocation.paths (invocation : Invocation) : List String :=
  match invocation.task with
  | .check artifact config _ => config.toList ++ [artifact]
  | .parse _ => []
  | .order artifact | .infer artifact _ => [artifact]

def versionLine : String := "formlogic 0.1.0\n"

def usageLine : String := "Usage: formlogic [OPTIONS] <check|parse|order|infer> [ARGUMENTS]\n"

def Request.outcome (files : Files) : Request → Outcome
  | .run invocation => invocation.run files
  | .version => .success versionLine
  | .help => .success usageLine
  | .misuse => ⟨2, "", "error: the arguments do not fit\n\n" ++ usageLine⟩

end FormRules.Command
