import FormRules.Proofs.Validation.Report
import FormRules.Validation.Logic

/-!
# The issues of expressions and rules

The lists of issues that the checks of expressions and rules find, in the order in which they find
them. Every check pushes its list whatever the report holds.
-/

namespace FormRules

namespace Issue

/-! ## Expressions -/

def ofVariables (env : Environment) (path : IssuePath) (text : String) (e : Expr) : List Issue :=
  (e.variableNames.filter fun name ↦ !env.knows name).map fun name ↦
    .ofFinding (.unknownVariable name) path text

/-- The issues of an expression, given those of its type if it is well formed. -/
def ofExpression (env : Environment) (path : IssuePath) (text : String)
    (ofType : Inference → List Issue) : List Issue :=
  match Expr.parse text with
  | .error error => [.ofFinding (.syntaxError error) path text]
  | .ok e => ofVariables env path text e ++ ofType (e.infer env)

def ofBoolean (path : IssuePath) (text : String) (found : Inference) : List Issue :=
  if found.isConfident && found.type ≠ .boolean then [.ofFinding (.notBoolean found.type) path text]
  else []

def ofCondition (env : Environment) (path : IssuePath) : Option Condition → List Issue
  | some (.expression text) => ofExpression env path text (ofBoolean path text)
  | _ => []

/-! ## Rules -/

def ofDeclared (declared : ValueType) (path : IssuePath) (text : String) (found : Inference) :
    List Issue :=
  if declared ≠ .unknown && found.isConfident && !declared.accepts found.type then
    [.ofFinding (.mismatch declared found.type) path text]
  else []

def ofProperty (type : FieldType) (path : IssuePath) (text : String) : Option String → List Issue
  | some name =>
    if (type.property? name).isSome then [] else [.ofFinding (.unknownProperty name type) path text]
  | none => []

def ofLeaf (env : Environment) (entry : LogicEntry) (cyclic : Bool) (valuePath : IssuePath)
    (property : Option String) (text : String) : List Issue :=
  let path := valuePath ++ property.toList.map .key
  ofProperty entry.type path text property ++ ofExpression env path text fun found ↦
    if cyclic then [] else ofDeclared (entry.declaredType property) path text found

def ofEntry (env : Environment) (entry : LogicEntry) (cyclic : Bool) (valuePath : IssuePath) :
    List Issue :=
  match entry.value with
  | .literal _ =>
    let declared := entry.declaredType none
    if declared ≠ .unknown && declared ≠ .boolean then
      [.ofFinding (.booleanLiteral declared) valuePath none]
    else []
  | value => value.expressions.flatMap fun leaf ↦ ofLeaf env entry cyclic valuePath leaf.1 leaf.2

def ofCycles (order : Order String) (base : IssuePath) : List Issue :=
  order.cyclic.map fun key ↦ .ofFinding .circularDependency (Report.rulePath base key) none

def ofRule (env : Environment) (order : Order String) (base : IssuePath)
    (rule : String × LogicEntry) : List Issue :=
  ofEntry env rule.2 (order.isCyclic rule.1) (Report.rulePath base rule.1 ++ [.key "value"])

def ofLogic (env : Environment) (order : Order String) (logic : LogicSection) (base : IssuePath) :
    List Issue :=
  ofCycles order base ++ logic.entries.flatMap (ofRule env order base)

end Issue

namespace Report

variable {env : Environment} {path base : IssuePath} {text : String} {entry : LogicEntry}
  {cyclic : Bool} {r : Report}

theorem checkVariables_eq_pushAll (e : Expr) :
    r.checkVariables env path text e = r.pushAll (Issue.ofVariables env path text e) := by
  unfold checkVariables Issue.ofVariables
  induction e.variableNames generalizing r with
  | nil => rfl
  | cons name rest ih =>
    rw [List.foldl_cons, ih]
    cases known : env.knows name <;> simp [known, find]

theorem checkExpression_eq_pushAll {checkType : Inference → Report → Report}
    {ofType : Inference → List Issue}
    (h : ∀ found r, checkType found r = r.pushAll (ofType found)) :
    r.checkExpression env path text checkType =
      r.pushAll (Issue.ofExpression env path text ofType) := by
  unfold checkExpression Issue.ofExpression
  cases Expr.parse text with
  | error fault => rfl
  | ok e =>
    dsimp only
    rw [h, checkVariables_eq_pushAll, pushAll_append]

theorem checkBoolean_eq_pushAll (found : Inference) :
    r.checkBoolean path text found = r.pushAll (Issue.ofBoolean path text found) := by
  unfold checkBoolean Issue.ofBoolean
  split <;> rfl

theorem checkCondition_eq_pushAll (condition : Option Condition) :
    r.checkCondition env path condition = r.pushAll (Issue.ofCondition env path condition) := by
  match condition with
  | none | some (.literal _) => rfl
  | some (.expression text) =>
    exact unlessDone_eq_pushAll
      (checkExpression_eq_pushAll fun found r ↦ checkBoolean_eq_pushAll found)

theorem checkDeclared_eq_pushAll (declared : ValueType) (found : Inference) :
    r.checkDeclared declared path text found =
      r.pushAll (Issue.ofDeclared declared path text found) := by
  unfold checkDeclared Issue.ofDeclared
  split <;> rfl

theorem checkProperty_eq_pushAll (type : FieldType) (property : Option String) :
    r.checkProperty type path text property =
      r.pushAll (Issue.ofProperty type path text property) := by
  cases property with
  | none => rfl
  | some name =>
    unfold checkProperty Issue.ofProperty
    dsimp only
    split <;> rfl

theorem checkLeaf_eq_pushAll (property : Option String) :
    r.checkLeaf env entry cyclic path property text =
      r.pushAll (Issue.ofLeaf env entry cyclic path property text) := by
  unfold checkLeaf Issue.ofLeaf
  rw [pushAll_append, ← checkProperty_eq_pushAll]
  apply checkExpression_eq_pushAll
  intro found r
  cases cyclic with
  | true => rfl
  | false => exact checkDeclared_eq_pushAll _ found

theorem checkEntry_eq_pushAll (r : Report) (entry : LogicEntry) :
    r.checkEntry env entry cyclic path = r.pushAll (Issue.ofEntry env entry cyclic path) := by
  have leaves : ∀ expressions : List (Option String × String),
      expressions.foldl (fun r leaf ↦ r.checkLeaf env entry cyclic path leaf.1 leaf.2) r =
        r.pushAll (expressions.flatMap fun leaf ↦
          Issue.ofLeaf env entry cyclic path leaf.1 leaf.2) := by
    intro expressions
    exact foldl_eq_pushAll (fun r leaf ↦ checkLeaf_eq_pushAll leaf.1) r
  unfold checkEntry Issue.ofEntry
  cases entry.value with
  | literal value =>
    dsimp only
    split <;> rfl
  | expression text => exact leaves _
  | object properties => exact leaves _

theorem checkLogic_eq_pushAll (order : Order String) (logic : LogicSection) :
    r.checkLogic env order logic base = r.pushAll (Issue.ofLogic env order logic base) := by
  have cycles : order.cyclic.foldl (fun r key ↦ r.find .circularDependency (rulePath base key)) r =
      r.pushAll (Issue.ofCycles order base) := by
    rw [Issue.ofCycles, List.map_eq_flatMap]
    apply foldl_eq_pushAll
    intro r key
    exact find_eq_pushAll r .circularDependency (rulePath base key) none
  unfold checkLogic Issue.ofLogic
  rw [pushAll_append, ← cycles]
  apply foldl_eq_pushAll
  intro r rule
  exact unlessDone_eq_pushAll (checkEntry_eq_pushAll r rule.2)

end Report

end FormRules
