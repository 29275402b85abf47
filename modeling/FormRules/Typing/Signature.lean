import FormRules.Typing.ValueType

/-!
# Function signatures

The functions that expressions may call. A variadic function takes its last parameter any number
of times, none included.
-/

namespace FormRules

structure Signature where
  name : String
  parameters : List ValueType
  variadic : Bool
  returns : ValueType
deriving DecidableEq, Repr, Inhabited

namespace Signature

def acceptsArity (s : Signature) (n : Nat) : Bool :=
  if s.variadic then s.parameters.length ≤ n + 1 else n = s.parameters.length

/-- The functions that every form may call. -/
def builtins : List Signature :=
  [⟨"all", [.boolean], true, .boolean⟩,
    ⟨"any", [.boolean], true, .boolean⟩,
    ⟨"xor", [.boolean, .boolean], false, .boolean⟩,
    ⟨"isEmpty", [.unknown], false, .boolean⟩,
    ⟨"isPresent", [.unknown], false, .boolean⟩,
    ⟨"contains", [.unknown, .unknown], false, .boolean⟩,
    ⟨"startsWith", [.unknown, .unknown], false, .boolean⟩,
    ⟨"endsWith", [.unknown, .unknown], false, .boolean⟩,
    ⟨"min", [.number], true, .number⟩,
    ⟨"max", [.number], true, .number⟩,
    ⟨"sum", [.number], true, .number⟩,
    ⟨"abs", [.number], false, .number⟩,
    ⟨"round", [.number], false, .number⟩,
    ⟨"floor", [.number], false, .number⟩,
    ⟨"ceil", [.number], false, .number⟩,
    ⟨"length", [.unknown], false, .integer⟩,
    ⟨"count", [.unknown], false, .integer⟩,
    ⟨"lower", [.string], false, .string⟩,
    ⟨"upper", [.string], false, .string⟩,
    ⟨"trim", [.string], false, .string⟩,
    ⟨"concat", [.string], true, .string⟩,
    ⟨"today", [], false, .date⟩,
    ⟨"now", [], false, .datetime⟩,
    ⟨"if", [.boolean, .unknown, .unknown], false, .unknown⟩]

end Signature

end FormRules
