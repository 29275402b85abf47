import FormRules.Expr.Basic
import FormRules.Expr.SyntaxError

/-!
# The parser's place

A cursor stands before some rest of the token list and counts the parentheses, argument lists and
prefix operators around that place. Parsing answers with a value and a cursor that has moved on, or
with an error and the cursor at which it arose. That an answer has moved on is part of its type,
so the parser can recurse on what is left.
-/

namespace FormRules

/-- A place in a token list. -/
structure Cursor where
  rest : List PlacedToken
  stop : Nat
  /-- How many nesting constructs are open here. -/
  depth : Nat
  /-- The greatest depth that has been entered on the way here. -/
  deepest : Nat
deriving DecidableEq, Repr

namespace Cursor

def start (list : TokenList) : Cursor := ⟨list.tokens, list.stop, 0, 0⟩

def left (s : Cursor) : Nat := s.rest.length

def peek (s : Cursor) : Option Token := s.rest.head?.map PlacedToken.token

def offset (s : Cursor) : Nat :=
  match s.rest with
  | [] => s.stop
  | t :: _ => t.offset

def goto (s : Cursor) (rest : List PlacedToken) : Cursor := { s with rest := rest }

/-- The same place, one nesting construct further in. -/
def enter (s : Cursor) : Cursor :=
  { s with depth := s.depth + 1, deepest := max s.deepest (s.depth + 1) }

def leave (s : Cursor) : Cursor := { s with depth := s.depth - 1 }

@[simp] theorem left_goto (s : Cursor) (rest : List PlacedToken) :
    (s.goto rest).left = rest.length := rfl

@[simp] theorem left_enter (s : Cursor) : s.enter.left = s.left := rfl

theorem left_goto_lt {s : Cursor} {t : PlacedToken} {rest : List PlacedToken}
    (h : s.rest = t :: rest) : (s.goto rest).left < s.left := by
  simp [left, goto, h]

end Cursor

/-- The answer of a parsing function that started with `bound` tokens left. -/
inductive Parsed (bound : Nat) (α : Type) where
  | ok (value : α) (cursor : Cursor) (moved : cursor.left < bound)
  | error (fault : SyntaxError) (cursor : Cursor)

namespace Parsed

variable {bound : Nat} {α : Type}

def leave : Parsed bound α → Parsed bound α
  | .ok value cursor moved => .ok value cursor.leave moved
  | .error fault cursor => .error fault cursor.leave

/-- The answer of a function that started further back. -/
def widen {wider : Nat} (h : bound ≤ wider) : Parsed bound α → Parsed wider α
  | .ok value cursor moved => .ok value cursor (Nat.lt_of_lt_of_le moved h)
  | .error fault cursor => .error fault cursor

end Parsed

end FormRules
