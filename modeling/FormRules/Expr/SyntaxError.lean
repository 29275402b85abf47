import FormRules.Token.Basic

/-!
# Syntax errors

Everything that can be wrong with the text of an expression, each with the offset it is reported
at. The wording lives here alone, so the reader and the parser speak only of causes.
-/

namespace FormRules

/-- How many parentheses, argument lists and prefix operators may enclose one another. -/
def maxNesting : Nat := 64

/-- The greatest height of an expression, a lone literal or name having height one. -/
def maxHeight : Nat := 256

namespace SyntaxError

inductive Cause where
  | blank
  | unterminatedText
  | unterminatedEscape
  /-- A letter or an underscore touches a number. -/
  | afterNumber (c : Char)
  | singleEquals
  /-- An ampersand or a bar stands alone. -/
  | halfOperator (c : Char)
  | strayCharacter (c : Char)
  | expectedOperand (found : Option Token)
  | expectedIdentifier (found : Option Token)
  | expectedProperty (found : Option Token)
  | expectedArgument
  | expectedClosing (found : Token)
  | unmatchedOpening
  | unmatchedClosing
  | trailing (found : Token)
  | notCallable (name : String)
  | chainedComparison
  | nestedTooDeeply
  | tooComplex
deriving DecidableEq, Repr

def Cause.message : Cause → String
  | .blank => "expression is empty"
  | .unterminatedText => "unterminated string literal"
  | .unterminatedEscape => "unterminated escape in string"
  | .afterNumber c => s!"unexpected character '{c}' after number"
  | .singleEquals => "unexpected '='; use '==' for equality"
  | .halfOperator c => s!"unexpected '{c}'; use '{c}{c}' or the keyword form"
  | .strayCharacter c => s!"unexpected character '{c}'"
  | .expectedOperand found => s!"expected expression, got {Token.describeFound found}"
  | .expectedIdentifier found => s!"expected identifier, got {Token.describeFound found}"
  | .expectedProperty found =>
    s!"expected property name after '.', got {Token.describeFound found}"
  | .expectedArgument => "expected argument after ','"
  | .expectedClosing found => s!"expected ')', got {found.describe}"
  | .unmatchedOpening => "unmatched '(': missing closing ')'"
  | .unmatchedClosing => "unmatched ')'"
  | .trailing found => s!"unexpected {found.describe} after end of expression"
  | .notCallable name => s!"'{name}' cannot be called; only bare function names are callable"
  | .chainedComparison => "chained comparison is not allowed; combine comparisons with 'and'"
  | .nestedTooDeeply => s!"expression nested too deeply (limit {maxNesting})"
  | .tooComplex => s!"expression too complex (more than {maxHeight} nested operations)"

/-- The two causes that a grammatical expression can meet: the limits on nesting and height. -/
def Cause.isLimit : Cause → Bool
  | .nestedTooDeeply | .tooComplex => true
  | _ => false

end SyntaxError

/-- A cause and the number of characters before the place it is reported at. -/
structure SyntaxError where
  cause : SyntaxError.Cause
  offset : Nat
deriving DecidableEq, Repr

namespace SyntaxError

def message (e : SyntaxError) : String := e.cause.message

def describe (e : SyntaxError) : String := s!"{e.message} (at offset {e.offset})"

end SyntaxError

end FormRules
