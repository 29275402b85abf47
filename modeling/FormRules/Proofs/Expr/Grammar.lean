import FormRules.Expr.Parse

/-!
# The grammar of expressions

A phrase is a derivation of one of the levels of the grammar. It spells a list of tokens and builds
a tree: the operands of a chain are grouped to the left, and parentheses leave no trace.
-/

namespace FormRules

namespace Grammar

/-- The levels that are chains of operands, with the level of the operands. -/
inductive Chained : Level → Level → Prop where
  | or : Chained .or .and
  | and : Chained .and .not
  | sum : Chained .sum .product
  | product : Chained .product .negation

/-- The levels that take prefix operators, with the level below the operators. -/
inductive Prefixed : Level → Level → Prop where
  | not : Prefixed .not .comparison
  | negation : Prefixed .negation .operand

/-- The tokens that spell a binary operator. -/
inductive Joins : Level → BinaryOp → Token → Prop where
  | orSign : Joins .or .or .or
  | orWord : Joins .or .or (.word "or")
  | andSign : Joins .and .and .and
  | andWord : Joins .and .and (.word "and")
  | equal : Joins .comparison .equal .equal
  | notEqual : Joins .comparison .notEqual .notEqual
  | less : Joins .comparison .less .less
  | lessEqual : Joins .comparison .lessEqual .lessEqual
  | greater : Joins .comparison .greater .greater
  | greaterEqual : Joins .comparison .greaterEqual .greaterEqual
  | plus : Joins .sum .add .plus
  | minus : Joins .sum .subtract .minus
  | star : Joins .product .multiply .star
  | slash : Joins .product .divide .slash

/-- The tokens that spell a prefix operator. -/
inductive Applies : Level → UnaryOp → Token → Prop where
  | notSign : Applies .not .not .not
  | notWord : Applies .not .not (.word "not")
  | minus : Applies .negation .negate .minus

/-- The words that may begin a name. After a dot any word may stand. -/
def IsName (word : String) : Prop :=
  word ≠ "and" ∧ word ≠ "or" ∧ word ≠ "not" ∧ word ≠ "true" ∧ word ≠ "false"

/-- The tokens that continue a name by properties. -/
def dotted (properties : List String) : List Token :=
  properties.flatMap fun property ↦ [.dot, .word property]

@[simp] theorem dotted_nil : dotted [] = [] := rfl

@[simp] theorem dotted_cons (property : String) (properties : List String) :
    dotted (property :: properties) = .dot :: .word property :: dotted properties := rfl

end Grammar

open Grammar

mutual

/-- The derivations of a level. A comparison holds at most one operator, and no production puts a
parenthesis after a dotted name. -/
inductive Phrase : Level → Type where
  | chain {level inner : Level} (shape : Chained level inner) (first : Phrase inner)
      (more : Links level inner) : Phrase level
  | applied {level : Level} (op : UnaryOp) (sign : Token) (spelled : Applies level op sign)
      (operand : Phrase level) : Phrase level
  | plain {level inner : Level} (shape : Prefixed level inner) (operand : Phrase inner) :
      Phrase level
  | single (only : Phrase .sum) : Phrase .comparison
  | compared (left : Phrase .sum) (op : BinaryOp) (sign : Token)
      (spelled : Joins .comparison op sign) (right : Phrase .sum) : Phrase .comparison
  | number (digits : String) : Phrase .operand
  | text (content : String) : Phrase .operand
  | truth (value : Bool) : Phrase .operand
  | group (inner : Phrase .or) : Phrase .operand
  | name (first : String) (isName : IsName first) (properties : List String) : Phrase .operand
  | call (function : String) (isName : IsName function) : Phrase .operand
  | callWith (function : String) (isName : IsName function) (arguments : Arguments) :
    Phrase .operand

/-- The operators and operands that continue a chain. -/
inductive Links : Level → Level → Type where
  | done {level inner : Level} : Links level inner
  | link {level inner : Level} (op : BinaryOp) (sign : Token) (spelled : Joins level op sign)
      (operand : Phrase inner) (more : Links level inner) : Links level inner

/-- One or more arguments with commas between them. -/
inductive Arguments : Type where
  | last (argument : Phrase .or) : Arguments
  | cons (argument : Phrase .or) (more : Arguments) : Arguments

end

mutual

/-- The tokens that a phrase spells. -/
def Phrase.tokens : {level : Level} → Phrase level → List Token
  | _, .chain _ first more => first.tokens ++ more.tokens
  | _, .applied _ sign _ operand => sign :: operand.tokens
  | _, .plain _ operand => operand.tokens
  | _, .single only => only.tokens
  | _, .compared left _ sign _ right => left.tokens ++ sign :: right.tokens
  | _, .number digits => [.number digits]
  | _, .text content => [.text content]
  | _, .truth value => [.word (if value then "true" else "false")]
  | _, .group inner => .leftParen :: (inner.tokens ++ [.rightParen])
  | _, .name first _ properties => .word first :: dotted properties
  | _, .call function _ => [.word function, .leftParen, .rightParen]
  | _, .callWith function _ arguments =>
    .word function :: .leftParen :: (arguments.tokens ++ [.rightParen])

def Links.tokens : {level inner : Level} → Links level inner → List Token
  | _, _, .done => []
  | _, _, .link _ sign _ operand more => sign :: (operand.tokens ++ more.tokens)

def Arguments.tokens : Arguments → List Token
  | .last argument => argument.tokens
  | .cons argument more => argument.tokens ++ .comma :: more.tokens

end

mutual

/-- The tree that a phrase builds, with every offset zero. -/
def Phrase.tree : {level : Level} → Phrase level → Expr
  | _, .chain _ first more => more.tree first.tree
  | _, .applied op _ _ operand => .unary op operand.tree 0
  | _, .plain _ operand => operand.tree
  | _, .single only => only.tree
  | _, .compared left op _ _ right => .binary op left.tree right.tree 0
  | _, .number digits => .literal (.number digits) 0
  | _, .text content => .literal (.text content) 0
  | _, .truth value => .literal (.boolean value) 0
  | _, .group inner => inner.tree
  | _, .name first _ properties => .reference (".".intercalate (first :: properties)) 0
  | _, .call function _ => .call function [] 0
  | _, .callWith function _ arguments => .call function arguments.trees 0

/-- The tree of a chain, given the tree of what stands to the left. -/
def Links.tree : {level inner : Level} → Links level inner → Expr → Expr
  | _, _, .done, left => left
  | _, _, .link op _ _ operand more, left => more.tree (.binary op left operand.tree 0)

def Arguments.trees : Arguments → List Expr
  | .last argument => [argument.tree]
  | .cons argument more => argument.tree :: more.trees

end

end FormRules
