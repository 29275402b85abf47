import FormRules.Expr.SyntaxError
import FormRules.Text.Blank
import FormRules.Text.Letter
import FormRules.Text.Numeral

/-!
# Lexemes

A lexeme is the piece of text that spells one token. Given its first character and all that
follows, `lexeme` gives the token and how many further characters belong to it. Counting the
further characters only, a lexeme is never empty, so a text is used up by dropping lexemes.
-/

namespace FormRules.Token

open FormRules.Text

/-- What stands wrong within a lexeme, and how many characters into it. -/
structure Misspelling where
  cause : SyntaxError.Cause
  ahead : Nat
deriving DecidableEq, Repr

def beginsWord (c : Char) : Bool := isLetter c || c = '_' || c = '$'

def continuesWord (c : Char) : Bool := isLetter c || isNumeral c || c = '_' || c = '$'

/-- What a character means after a backslash. An escape that means nothing stands for itself. -/
def unescape (c : Char) : List Char :=
  if c = '"' || c = '\'' || c = '\\' then [c]
  else if c = 'n' then ['\n']
  else if c = 't' then ['\t']
  else ['\\', c]

/-- The content of a quoted text whose opening quote has been taken, and how many characters it
spans up to and with the closing quote. -/
def quotedContent (quote : Char) : List Char → Except SyntaxError.Cause (List Char × Nat)
  | [] => .error .unterminatedText
  | c :: rest =>
    if c = quote then .ok ([], 1)
    else if c = '\\' then
      match rest with
      | [] => .error .unterminatedEscape
      | e :: rest' =>
        (quotedContent quote rest').map fun (content, width) ↦ (unescape e ++ content, width + 2)
    else (quotedContent quote rest).map fun (content, width) ↦ (c :: content, width + 1)

/-- The fraction that follows the whole part of a number: a point with a digit after it, and the
digits. A point that no digit follows is not part of the number. -/
def fraction : List Char → List Char
  | '.' :: rest =>
    match rest.takeWhile Char.isDigit with
    | [] => []
    | digits => '.' :: digits
  | _ => []

/-- The digits of a number, given what stands after its first digit. -/
def numberTail (rest : List Char) : List Char :=
  rest.takeWhile Char.isDigit ++ fraction (rest.dropWhile Char.isDigit)

/-- The token that one or two characters spell, and how many characters follow the first. -/
def sign (c : Char) (next : Option Char) : Except SyntaxError.Cause (Token × Nat) :=
  match c, next with
  | '=', some '=' => .ok (.equal, 1)
  | '=', _ => .error .singleEquals
  | '!', some '=' => .ok (.notEqual, 1)
  | '!', _ => .ok (.not, 0)
  | '<', some '=' => .ok (.lessEqual, 1)
  | '<', _ => .ok (.less, 0)
  | '>', some '=' => .ok (.greaterEqual, 1)
  | '>', _ => .ok (.greater, 0)
  | '&', some '&' => .ok (.and, 1)
  | '&', _ => .error (.halfOperator '&')
  | '|', some '|' => .ok (.or, 1)
  | '|', _ => .error (.halfOperator '|')
  | '+', _ => .ok (.plus, 0)
  | '-', _ => .ok (.minus, 0)
  | '*', _ => .ok (.star, 0)
  | '/', _ => .ok (.slash, 0)
  | '(', _ => .ok (.leftParen, 0)
  | ')', _ => .ok (.rightParen, 0)
  | ',', _ => .ok (.comma, 0)
  | '.', _ => .ok (.dot, 0)
  | '∧', _ => .ok (.and, 0)
  | '∨', _ => .ok (.or, 0)
  | '¬', _ => .ok (.not, 0)
  | '≠', _ => .ok (.notEqual, 0)
  | '≤', _ => .ok (.lessEqual, 0)
  | '≥', _ => .ok (.greaterEqual, 0)
  | c, _ => .error (.strayCharacter c)

/-- The token that begins with `c`, and how many characters of `rest` belong to it. -/
def lexeme (c : Char) (rest : List Char) : Except Misspelling (Token × Nat) :=
  if c = '"' || c = '\'' then
    match quotedContent c rest with
    | .ok (content, width) => .ok (.text (String.ofList content), width)
    | .error cause => .error ⟨cause, 0⟩
  else if c.isDigit then
    let tail := numberTail rest
    match (rest.drop tail.length).head? with
    | some d =>
      if isLetter d || d = '_' then .error ⟨.afterNumber d, tail.length + 1⟩
      else .ok (.number (String.ofList (c :: tail)), tail.length)
    | none => .ok (.number (String.ofList (c :: tail)), tail.length)
  else if beginsWord c then
    let tail := rest.takeWhile continuesWord
    .ok (.word (String.ofList (c :: tail)), tail.length)
  else
    (sign c rest.head?).mapError (⟨·, 0⟩)

end FormRules.Token
