import FormRules.Expr.Basic
import FormRules.Token.Basic

/-!
# Precedence

The levels of the grammar from the loosest to the tightest, and the operators of each. An operator
may be a sign or a keyword, and the two spellings mean the same.
-/

namespace FormRules

inductive Level where
  | or
  | and
  | not
  | comparison
  | sum
  | product
  | negation
  | operand
deriving DecidableEq, Repr

namespace Level

/-- How many levels are tighter. -/
def rank : Level → Nat
  | .or => 7
  | .and => 6
  | .not => 5
  | .comparison => 4
  | .sum => 3
  | .product => 2
  | .negation => 1
  | .operand => 0

theorem rank_le (level : Level) : level.rank ≤ 7 := by cases level <;> decide

/-- The next tighter level, to which the operands of a level belong. -/
def tighter : Level → Level
  | .or => .and
  | .and => .not
  | .not => .comparison
  | .comparison => .sum
  | .sum => .product
  | .product => .negation
  | .negation => .operand
  | .operand => .operand

inductive Form where
  /-- Operands with operators between them, grouped to the left. -/
  | chain
  /-- Any number of prefix operators before an operand. -/
  | prefixed
  /-- One operand, or two with an operator between them. -/
  | pair
  /-- The tightest level: literals, variables, calls and parentheses. -/
  | operand
deriving DecidableEq, Repr

def form : Level → Form
  | .or | .and | .sum | .product => .chain
  | .not | .negation => .prefixed
  | .comparison => .pair
  | .operand => .operand

theorem rank_tighter_lt {level : Level} (h : level.form ≠ .operand) :
    level.tighter.rank < level.rank := by
  cases level <;> first | decide | exact absurd rfl h

def binary? : Level → Token → Option BinaryOp
  | .or, .or => some .or
  | .or, .word w => if w = "or" then some .or else none
  | .and, .and => some .and
  | .and, .word w => if w = "and" then some .and else none
  | .comparison, .equal => some .equal
  | .comparison, .notEqual => some .notEqual
  | .comparison, .less => some .less
  | .comparison, .lessEqual => some .lessEqual
  | .comparison, .greater => some .greater
  | .comparison, .greaterEqual => some .greaterEqual
  | .sum, .plus => some .add
  | .sum, .minus => some .subtract
  | .product, .star => some .multiply
  | .product, .slash => some .divide
  | _, _ => none

def unary? : Level → Token → Option UnaryOp
  | .not, .not => some .not
  | .not, .word w => if w = "not" then some .not else none
  | .negation, .minus => some .negate
  | _, _ => none

end Level

/-- The words that are operators or literals wherever an operand may begin. After a dot they are
property names like any other word. -/
def reservedWords : List String := ["and", "or", "not", "true", "false"]

end FormRules
