import FormRules.Toml.Read
import FormRules.Validation.Options

/-!
# Options from a configuration

The table `validate` of a configuration holds the options. What it does not set keeps its default,
and all other tables and keys are ignored.
-/

namespace FormRules.Options

def booleanOr (default : Bool) : Option Toml.Value → Option Bool
  | none => some default
  | some (.boolean value) => some value
  | some _ => none

def naturalOr (default : Nat) : Option Toml.Value → Option Nat
  | none => some default
  | some (.integer (.ofNat n)) => some n
  | some _ => none

def ofMembers (collectAllErrors maxDepth : Option Toml.Value) : Option Options := do
  return ⟨← booleanOr true collectAllErrors, ← naturalOr defaultMaxDepth maxDepth⟩

/-- The options that a value holds: a table, an array of the options in order, or a date, which
sets nothing. -/
def ofValue? : Toml.Value → Option Options
  | .table _ entries =>
    ofMembers (Keyed.get? entries "collect_all_errors") (Keyed.get? entries "max_depth")
  | .array values => ofMembers values[0]? values[1]?
  | .datetime _ => some {}
  | _ => none

def ofConfig? (text : String) : Option Options := do
  match Keyed.get? (← Toml.read? text) "validate" with
  | some value => ofValue? value
  | none => some {}

end FormRules.Options
