import FormRules.Expr.Parse
import FormRules.Typing.Environment

/-!
# Type inference

The type of an expression, from the bottom up and without ever failing: what cannot be told is
unknown. A comparison is a condition whatever it compares, and the operands of an operator are not
judged here.
-/

namespace FormRules

namespace Literal

def type : Literal → ValueType
  | .boolean _ => .boolean
  | .number _ => .number
  | .text _ => .string

end Literal

namespace Inference

def unary (op : UnaryOp) (operand : Inference) : Inference :=
  match op with
  | .not => ⟨.boolean, operand.confidence⟩
  | .negate => if operand.type.isNumeric then operand else .unknown

/-- The result of a logical or arithmetic operator. Numbers make a number, and texts can only be
added. -/
def binary (op : BinaryOp) (left right : Inference) : Inference :=
  let confidence := left.confidence.weaker right.confidence
  if op.isLogical then ⟨.boolean, confidence⟩
  else if left.type.isNumeric && right.type.isNumeric then ⟨.number, confidence⟩
  else if left.type = .string && right.type = .string && op = .add then ⟨.string, confidence⟩
  else .unknown

/-- The result of a call. A call that does not fit, or of a function without a fixed result, tells
nothing. -/
def call (signature : Option Signature) (arity : Nat) : Inference :=
  match signature with
  | some s => if s.returns ≠ .unknown && s.acceptsArity arity then .certain s.returns else .unknown
  | none => .unknown

end Inference

namespace Expr

def infer (env : Environment) : Expr → Inference
  | .literal value _ => .certain value.type
  | .reference name _ => (env.get? name).getD .unknown
  | .unary op operand _ => .unary op (operand.infer env)
  | .binary op left right _ =>
    if op.isComparison then .certain .boolean else .binary op (left.infer env) (right.infer env)
  | .call name arguments _ => .call (env.function? name) arguments.length

def inferText (env : Environment) (text : String) : Except SyntaxError Inference :=
  (parse text).map (infer env)

end Expr

end FormRules
