import FormRules.Graph.Order
import FormRules.Validation.Expression
import FormRules.Artifact.Logic

/-!
# Checking rules

No rule may depend on itself, and what is certain of the type of a value has to fit the type that is
declared for it.
-/

namespace FormRules.Report

/-- Reports a value that certainly does not have its declared type. -/
def checkDeclared (declared : ValueType) (path : IssuePath) (text : String) (found : Inference)
    (r : Report) : Report :=
  if declared ≠ .unknown && found.isConfident && !declared.accepts found.type then
    r.find (.mismatch declared found.type) path text
  else r

def checkProperty (type : FieldType) (path : IssuePath) (text : String) (property : Option String)
    (r : Report) : Report :=
  match property with
  | none => r
  | some name =>
    if (type.property? name).isSome then r else r.find (.unknownProperty name type) path text

/-- Checks one of the expressions of a rule. The type of a rule on a cycle is not known, so nothing
is said of it. -/
def checkLeaf (env : Environment) (entry : LogicEntry) (cyclic : Bool) (valuePath : IssuePath)
    (property : Option String) (text : String) (r : Report) : Report :=
  let path := valuePath ++ property.toList.map .key
  (r.checkProperty entry.type path text property).checkExpression env path text fun found r ↦
    if cyclic then r else r.checkDeclared (entry.declaredType property) path text found

def checkEntry (env : Environment) (entry : LogicEntry) (cyclic : Bool) (valuePath : IssuePath)
    (r : Report) : Report :=
  match entry.value with
  | .literal _ =>
    let declared := entry.declaredType none
    if declared ≠ .unknown && declared ≠ .boolean then r.find (.booleanLiteral declared) valuePath
    else r
  | value =>
    value.expressions.foldl
      (fun r leaf ↦ r.checkLeaf env entry cyclic valuePath leaf.1 leaf.2) r

def rulePath (base : IssuePath) (key : String) : IssuePath := base ++ [.key "logic", .key key]

def checkLogic (env : Environment) (order : Order String) (logic : LogicSection)
    (base : IssuePath) (r : Report) : Report :=
  let r := order.cyclic.foldl (fun r key ↦ r.find .circularDependency (rulePath base key)) r
  logic.entries.foldl
    (fun r entry ↦
      if r.isDone then r
      else
        r.checkEntry env entry.2 (order.isCyclic entry.1) (rulePath base entry.1 ++ [.key "value"]))
    r

end FormRules.Report
