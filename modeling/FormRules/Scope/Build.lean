import FormRules.Scope.Dependency
import FormRules.Typing.Infer

/-!
# The environment of an artifact

The names that the expressions of an artifact may use, with their types: first the paths of its
fields, then the keys of its rules in evaluation order, each inferred from those before it. The
rules on a cycle tell nothing about their types.
-/

namespace FormRules

/-- What a declared type tells about a field path. -/
def Inference.ofDeclared (type : ValueType) : Inference :=
  if type = .unknown then .unknown else .certain type

namespace Environment

def insertAll (env : Environment) (names : List (String × Inference)) : Environment :=
  names.foldl (fun env name ↦ env.insert name.1 name.2) env

/-- What an expression tells about the rule that it is the value of. -/
def inferRule (env : Environment) (text : String) : Inference :=
  match Expr.inferText env text with
  | .ok inference => if inference.isConfident then .inferred inference.type else .unknown
  | .error _ => .unknown

def inferEntry (env : Environment) (entry : LogicEntry) : Inference :=
  match entry.value with
  | .literal _ => .inferred .boolean
  | .expression text => env.inferRule text
  | .object _ => if entry.type.isComposite then .inferred entry.type.valueType else .unknown

/-- What is known of a property of a rule. An object gives an expression for it; any other value has
the properties of the declared type if it is known to be of that type. -/
def inferProperty (env : Environment) (entry : LogicEntry) (property : String × ValueType) :
    Inference :=
  match entry.value with
  | .object properties =>
    match properties.get? property.1 with
    | some text => env.inferRule text
    | none => .unknown
  | _ =>
    let own := env.inferEntry entry
    if own.isConfident && own.type = entry.type.valueType then .inferred property.2 else .unknown

/-- The names that a rule adds, given what is known of its value and of each property. -/
def ruleNames (key : String) (entry : LogicEntry) (own : Inference)
    (property : String × ValueType → Inference) : List (String × Inference) :=
  (key, own) :: entry.type.properties.map fun p ↦ (Field.within key p.1, property p)

def record (env : Environment) (key : String) (entry : LogicEntry) : Environment :=
  env.insertAll (ruleNames key entry (env.inferEntry entry) (env.inferProperty entry))

def recordCyclic (env : Environment) (key : String) (entry : LogicEntry) : Environment :=
  env.insertAll (ruleNames key entry .unknown fun _ ↦ .unknown)

def recordKey (logic : LogicSection) (order : Order String) (env : Environment) (key : String) :
    Environment :=
  match logic.get? key with
  | none => env
  | some entry => if order.isCyclic key then env.recordCyclic key entry else env.record key entry

/-- The built-in functions and the paths of fields. -/
def ofFields (fields : Fields) (maxDepth : Nat) : Environment :=
  initial.insertAll ((fields.types fieldRoot maxDepth).entries.map fun path ↦
    (path.1, .ofDeclared path.2))

def build (fields : Fields) (logic : LogicSection) (maxDepth : Nat) : Environment :=
  let order := LogicSection.order logic
  order.sorted.foldl (recordKey logic order) (ofFields fields maxDepth)

end Environment

end FormRules
