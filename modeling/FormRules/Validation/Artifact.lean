import FormRules.Artifact.Decode
import FormRules.Validation.Form

/-!
# Validation

All expressions of an artifact are checked, in bundles also those of the artifacts within. Each
artifact has an environment of its own.
-/

namespace FormRules

namespace Report

mutual

def checkArtifact (maxDepth : Nat) (base : IssuePath) : Artifact → Report → Report
  | .form form, r => r.checkForm maxDepth base form
  | .bundle _ _ logic contents, r =>
    let env := Environment.build .empty logic maxDepth
    checkItems maxDepth env base 0 contents
      (r.checkLogic env (LogicSection.order logic) logic base)
  | .document _, r | .checklist _, r => r

/-- Checks an item of a bundle and the artifact in it. -/
def checkItem (maxDepth : Nat) (env : Environment) (path : IssuePath) : Item → Report → Report
  | .inline _ condition artifact, r =>
    checkArtifact maxDepth (path ++ [.key "artifact"]) artifact
      (r.checkCondition env (path ++ [.key "include"]) condition)
  | .path _ condition _, r | .registry _ condition _, r =>
    r.checkCondition env (path ++ [.key "include"]) condition

/-- Checks items, the first of which has the given place. -/
def checkItems (maxDepth : Nat) (env : Environment) (base : IssuePath) (place : Nat) :
    List Item → Report → Report
  | [], r => r
  | item :: rest, r =>
    if r.isDone then r
    else
      checkItems maxDepth env base (place + 1) rest
        (checkItem maxDepth env (base ++ [.key "contents", .index place]) item r)

end

end Report

/-- The issues of an artifact: all of them, or the first if only that is asked for. -/
def Artifact.validate (artifact : Artifact) (options : Options) : List Issue :=
  (Report.checkArtifact options.maxDepth [] artifact (.empty options.collectAllErrors)).issues

def Json.validate (value : Json) (options : Options) : Except Artifact.Fault (List Issue) :=
  (fun artifact ↦ artifact.validate options) <$> Artifact.ofJson value

end FormRules
