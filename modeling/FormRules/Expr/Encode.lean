import FormRules.Expr.Basic
import FormRules.Json.Basic

/-!
# Writing expression trees

Expression trees as JSON values. Every node names its kind first and its offset last.
-/

namespace FormRules

def Literal.toJson : Literal → Json
  | .boolean value => .object [("kind", .text "bool"), ("value", .boolean value)]
  | .number digits => .object [("kind", .text "number"), ("value", .text digits)]
  | .text content => .object [("kind", .text "str"), ("value", .text content)]

def UnaryOp.name : UnaryOp → String
  | .not => "not"
  | .negate => "neg"

def BinaryOp.name : BinaryOp → String
  | .or => "or"
  | .and => "and"
  | .equal => "eq"
  | .notEqual => "neq"
  | .less => "lt"
  | .lessEqual => "lte"
  | .greater => "gt"
  | .greaterEqual => "gte"
  | .add => "add"
  | .subtract => "sub"
  | .multiply => "mul"
  | .divide => "div"

namespace Expr

mutual

def toJson : Expr → Json
  | .literal value offset =>
    .object [("node", .text "literal"), ("value", value.toJson), ("offset", .natural offset)]
  | .reference name offset =>
    .object [("node", .text "variable"), ("name", .text name), ("offset", .natural offset)]
  | .unary op operand offset =>
    .object
      [("node", .text "unary"), ("op", .text op.name), ("operand", operand.toJson),
        ("offset", .natural offset)]
  | .binary op left right offset =>
    .object
      [("node", .text "binary"), ("op", .text op.name), ("left", left.toJson),
        ("right", right.toJson), ("offset", .natural offset)]
  | .call name arguments offset =>
    .object
      [("node", .text "call"), ("name", .text name), ("args", .array (toJsonAll arguments)),
        ("offset", .natural offset)]

def toJsonAll : List Expr → List Json
  | [] => []
  | e :: rest => e.toJson :: toJsonAll rest

end

end Expr

end FormRules
