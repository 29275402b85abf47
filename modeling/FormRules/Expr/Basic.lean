/-!
# Expressions

The tree that a text denotes. Every node keeps the offset of the token that introduces it: the
operator of a binary node, and the first token of any other. Two trees that differ in offsets only
mean the same, and `forget` puts all offsets to zero so that they become equal.
-/

namespace FormRules

/-- A value as it is written. A number keeps its digits, so that `1.50` is not `1.5`. -/
inductive Literal where
  | boolean (value : Bool)
  | number (digits : String)
  | text (content : String)
deriving DecidableEq, Repr

inductive UnaryOp where
  | not
  | negate
deriving DecidableEq, Repr

inductive BinaryOp where
  | or
  | and
  | equal
  | notEqual
  | less
  | lessEqual
  | greater
  | greaterEqual
  | add
  | subtract
  | multiply
  | divide
deriving DecidableEq, Repr

namespace BinaryOp

/-- Whether an operator joins two conditions. -/
def isLogical : BinaryOp → Bool
  | .or | .and => true
  | _ => false

/-- Whether an operator compares two values. -/
def isComparison : BinaryOp → Bool
  | .equal | .notEqual | .less | .lessEqual | .greater | .greaterEqual => true
  | _ => false

end BinaryOp

/-- An expression. -/
inductive Expr where
  | literal (value : Literal) (offset : Nat)
  /-- A bare name, or the dotted path of a property. -/
  | reference (name : String) (offset : Nat)
  | unary (op : UnaryOp) (operand : Expr) (offset : Nat)
  | binary (op : BinaryOp) (left right : Expr) (offset : Nat)
  | call (name : String) (arguments : List Expr) (offset : Nat)
deriving Repr, Inhabited

namespace Expr

/-- The offset of the token that introduces the node. -/
def offset : Expr → Nat
  | .literal _ offset | .reference _ offset | .unary _ _ offset | .binary _ _ _ offset
  | .call _ _ offset => offset

mutual

/-- The same tree with every offset zero. -/
def forget : Expr → Expr
  | .literal value _ => .literal value 0
  | .reference name _ => .reference name 0
  | .unary op operand _ => .unary op operand.forget 0
  | .binary op left right _ => .binary op left.forget right.forget 0
  | .call name arguments _ => .call name (forgetAll arguments) 0

def forgetAll : List Expr → List Expr
  | [] => []
  | e :: rest => e.forget :: forgetAll rest

end

mutual

/-- The number of nodes on the longest way from the root to a leaf. -/
def height : Expr → Nat
  | .literal _ _ | .reference _ _ => 1
  | .unary _ operand _ => operand.height + 1
  | .binary _ left right _ => max left.height right.height + 1
  | .call _ arguments _ => heightAll arguments + 1

def heightAll : List Expr → Nat
  | [] => 0
  | e :: rest => max e.height (heightAll rest)

end

mutual

/-- The names of all reference nodes from left to right. The name of a call is not a reference. -/
def names : Expr → List String
  | .literal _ _ => []
  | .reference name _ => [name]
  | .unary _ operand _ => operand.names
  | .binary _ left right _ => left.names ++ right.names
  | .call _ arguments _ => namesAll arguments

def namesAll : List Expr → List String
  | [] => []
  | e :: rest => e.names ++ namesAll rest

end

mutual

theorem names_forget : (e : Expr) → e.forget.names = e.names
  | .literal _ _ | .reference _ _ => rfl
  | .unary _ operand _ => names_forget operand
  | .binary _ left right _ => by
    rw [forget, names, names, names_forget left, names_forget right]
  | .call _ arguments _ => namesAll_forgetAll arguments

theorem namesAll_forgetAll : (list : List Expr) → namesAll (forgetAll list) = namesAll list
  | [] => rfl
  | e :: rest => by
    rw [forgetAll, namesAll, namesAll, names_forget e, namesAll_forgetAll rest]

end

/-- The variables of an expression: each name it refers to, once, in the order of first use. -/
def variableNames (e : Expr) : List String := e.names.eraseDups

end Expr

end FormRules
