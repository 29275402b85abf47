import FormRules.Artifact.Logic
import FormRules.Expr.Parse
import FormRules.Graph.Order
import FormRules.Scope.FieldPaths

/-!
# Dependencies between rules

A rule depends on the rules that its expressions refer to, by their keys or by properties of them.
Field paths are no dependencies, and an expression that is not well formed has none.
-/

namespace FormRules

/-- The key that a variable refers to: the whole name if it is a key, or else what stands before its
first dot, unless that is the root of field paths. -/
def referencedKey? (name : String) (keys : List String) : Option String :=
  if name ∈ keys then some name
  else
    let cs := name.toList
    let root := String.ofList (cs.takeWhile (· ≠ '.'))
    if '.' ∈ cs ∧ root ≠ fieldRoot ∧ root ∈ keys then some root else none

/-- The variables of the expression that a text spells, none if it spells none. -/
def Expr.textVariables (text : String) : List String :=
  match parse text with
  | .ok e => e.variableNames
  | .error _ => []

def LogicValue.variableNames (value : LogicValue) : List String :=
  value.expressions.flatMap fun expression ↦ Expr.textVariables expression.2

namespace LogicSection

/-- The graph of the keys of a section, with an edge to each key that a rule refers to. -/
def dependencies (logic : LogicSection) : Graph String :=
  .ofList (logic.entries.map fun entry ↦
    (entry.1, entry.2.value.variableNames.filterMap (referencedKey? · logic.keys)))

def order (logic : LogicSection) : Order String := (dependencies logic).order

end LogicSection

end FormRules
