import FormRules.Token.Lexeme

/-!
# The tokens of a text

A text is read from left to right: white space is passed over, and each lexeme becomes a token
placed at the offset where the lexeme begins. The first misspelled lexeme ends the reading.
-/

namespace FormRules.Token

open FormRules.Text

/-- The tokens of `text`, whose first character has the given offset. -/
def scanFrom (offset : Nat) (text : List Char) : Except SyntaxError (List PlacedToken) :=
  match text with
  | [] => .ok []
  | c :: rest =>
    if isBlank c then scanFrom (offset + 1) rest
    else
      match lexeme c rest with
      | .error fault => .error ⟨fault.cause, offset + fault.ahead⟩
      | .ok (token, more) =>
        (scanFrom (offset + 1 + more) (rest.drop more)).map (⟨token, offset⟩ :: ·)
termination_by text.length
decreasing_by
  · simp
  · simp only [List.length_drop, List.length_cons]
    omega

def scan (text : List Char) : Except SyntaxError TokenList :=
  (scanFrom 0 text).map (⟨·, text.length⟩)

end FormRules.Token
