import FormRules.Keyed.OrderedMap
import FormRules.Typing.FieldType

/-!
# Logic

The named rules of an artifact. A rule has a declared type and a value: a truth value, an
expression, or for a composite type an expression for each of its properties.
-/

namespace FormRules

inductive LogicValue where
  | literal (value : Bool)
  | expression (text : String)
  /-- An expression for each property. -/
  | object (properties : OrderedMap String String)
deriving DecidableEq

/-- The expressions of a value, each with the property it stands for, if any. -/
def LogicValue.expressions : LogicValue → List (Option String × String)
  | .literal _ => []
  | .expression text => [(none, text)]
  | .object properties => properties.entries.map fun entry ↦ (some entry.1, entry.2)

structure LogicEntry where
  type : FieldType
  label : Option String
  description : Option String
  value : LogicValue
deriving DecidableEq

/-- The value type that is declared for a rule, or for one of its properties. -/
def LogicEntry.declaredType (entry : LogicEntry) : Option String → ValueType
  | none => entry.type.valueType
  | some property => (entry.type.property? property).getD .unknown

abbrev LogicSection := OrderedMap String LogicEntry

end FormRules
