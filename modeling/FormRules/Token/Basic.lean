/-!
# Tokens

The words, literals and signs that an expression is made of. The keywords are words here: whether
a word is an operator or a name depends on where it stands, and the grammar decides that.
-/

namespace FormRules

inductive Token where
  /-- A name or a keyword. -/
  | word (text : String)
  /-- A quoted text, without its quotes and with its escapes resolved. -/
  | text (content : String)
  | number (digits : String)
  | leftParen
  | rightParen
  | comma
  | dot
  | equal
  | notEqual
  | less
  | lessEqual
  | greater
  | greaterEqual
  | plus
  | minus
  | star
  | slash
  | and
  | or
  | not
deriving DecidableEq, Repr, Inhabited

/-- A token and the number of characters that stand before it. -/
structure PlacedToken where
  token : Token
  offset : Nat
deriving DecidableEq, Repr, Inhabited

/-- The tokens of a text, and the offset at which the text ends. -/
structure TokenList where
  tokens : List PlacedToken
  stop : Nat
deriving DecidableEq, Repr, Inhabited

namespace Token

def describe : Token → String
  | .word w => s!"'{w}'"
  | .text s => s!"string \"{s}\""
  | .number n => s!"number {n}"
  | .leftParen => "'('"
  | .rightParen => "')'"
  | .comma => "','"
  | .dot => "'.'"
  | .equal => "'=='"
  | .notEqual => "'!='"
  | .less => "'<'"
  | .lessEqual => "'<='"
  | .greater => "'>'"
  | .greaterEqual => "'>='"
  | .plus => "'+'"
  | .minus => "'-'"
  | .star => "'*'"
  | .slash => "'/'"
  | .and => "'&&'"
  | .or => "'||'"
  | .not => "'!'"

/-- What is found at a place of the token list, where nothing means that the text has ended. -/
def describeFound : Option Token → String
  | some token => token.describe
  | none => "end of expression"

end Token

end FormRules
