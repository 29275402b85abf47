import FormRules.Artifact.Field
import FormRules.Typing.Infer
import FormRules.Validation.Report

/-!
# Checking expressions

The checks that every expression goes through: that it is well formed, that its variables are in
scope, and for a condition that it is not certain to be anything but a truth value.
-/

namespace FormRules.Report

def checkVariables (env : Environment) (path : IssuePath) (text : String) (e : Expr)
    (r : Report) : Report :=
  e.variableNames.foldl
    (fun r name ↦ if env.knows name then r else r.find (.unknownVariable name) path text) r

/-- Reports an expression that is not well formed. One that is goes through its variables and then
through a check of its type. -/
def checkExpression (env : Environment) (path : IssuePath) (text : String)
    (checkType : Inference → Report → Report) (r : Report) : Report :=
  match Expr.parse text with
  | .error error => r.find (.syntaxError error) path text
  | .ok e => checkType (e.infer env) (r.checkVariables env path text e)

/-- Reports a condition that is certainly no truth value. -/
def checkBoolean (path : IssuePath) (text : String) (found : Inference) (r : Report) : Report :=
  if found.isConfident && found.type ≠ .boolean then r.find (.notBoolean found.type) path text
  else r

def checkCondition (env : Environment) (path : IssuePath) (condition : Option Condition)
    (r : Report) : Report :=
  match condition with
  | none | some (.literal _) => r
  | some (.expression text) =>
    if r.isDone then r else r.checkExpression env path text (checkBoolean path text)

end FormRules.Report
