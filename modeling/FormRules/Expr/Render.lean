import FormRules.Expr.Basic
import FormRules.Text.Quoted

/-!
# Rendering

An expression written with a pair of parentheses around every operator, which shows how the parser
has grouped it. No grouping is left to precedence, so different trees have different renderings.
-/

namespace FormRules

def BinaryOp.symbol : BinaryOp → String
  | .or => "or"
  | .and => "and"
  | .equal => "=="
  | .notEqual => "!="
  | .less => "<"
  | .lessEqual => "<="
  | .greater => ">"
  | .greaterEqual => ">="
  | .add => "+"
  | .subtract => "-"
  | .multiply => "*"
  | .divide => "/"

def Literal.render : Literal → String
  | .boolean true => "true"
  | .boolean false => "false"
  | .number digits => digits
  | .text content => Text.quote content

namespace Expr

mutual

/-- The fully parenthesized text of an expression. -/
def render : Expr → String
  | .literal value _ => value.render
  | .reference name _ => name
  | .unary .not operand _ => "(not " ++ operand.render ++ ")"
  | .unary .negate operand _ => "(-" ++ operand.render ++ ")"
  | .binary op left right _ =>
    "(" ++ left.render ++ " " ++ op.symbol ++ " " ++ right.render ++ ")"
  | .call name arguments _ => name ++ "(" ++ renderAll arguments ++ ")"

def renderAll : List Expr → String
  | [] => ""
  | [e] => e.render
  | e :: rest => e.render ++ ", " ++ renderAll rest

end

end Expr

end FormRules
