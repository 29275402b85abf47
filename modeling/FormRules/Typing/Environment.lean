import FormRules.Keyed.OrderedMap
import FormRules.Typing.Inference
import FormRules.Typing.Signature

/-!
# Type environments

What is known of the names that an expression may use: the variables with their inferences, and the
functions with their signatures.
-/

namespace FormRules

structure Environment where
  inferences : OrderedMap String Inference
  functions : List Signature
deriving DecidableEq

namespace Environment

def ofFunctions (functions : List Signature) : Environment := ⟨.empty, functions⟩

def initial : Environment := .ofFunctions Signature.builtins

def insert (env : Environment) (name : String) (inference : Inference) : Environment :=
  { env with inferences := env.inferences.insert name inference }

/-- What is known of a variable, if it is in scope. -/
def get? (env : Environment) (name : String) : Option Inference := env.inferences.get? name

def contains (env : Environment) (name : String) : Bool := env.inferences.contains name

def function? (env : Environment) (name : String) : Option Signature :=
  env.functions.find? fun signature ↦ signature.name = name

/-- Whether a name is a variable in scope or a function. -/
def knows (env : Environment) (name : String) : Bool :=
  env.contains name || (env.function? name).isSome

def size (env : Environment) : Nat := env.inferences.size

def isEmpty (env : Environment) : Bool := env.inferences.isEmpty

theorem get?_insert (env : Environment) (name : String) (inference : Inference) (other : String) :
    (env.insert name inference).get? other =
      if name = other then some inference else env.get? other :=
  env.inferences.get?_insert name inference other

end Environment

end FormRules
