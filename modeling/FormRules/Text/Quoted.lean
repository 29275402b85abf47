import FormRules.Text.Printable

/-!
# Quoted text

A text as a message or a rendering shows it: between double quotes, each character either as it is
or as an escape. Every escape begins with a backslash, and a bare backslash or double quote never
stands inside, so a quoted text ends at its first bare quote and can be read back.
-/

namespace FormRules.Text

/-- The hexadecimal digits of a code point, in lower case and without leading zeros. -/
def hexDigits (code : Nat) : List Char := Nat.toDigits 16 code

def quoteChar (c : Char) : List Char :=
  if c = '"' then ['\\', '"']
  else if c = '\\' then ['\\', '\\']
  else if c = '\n' then ['\\', 'n']
  else if c = '\r' then ['\\', 'r']
  else if c = '\t' then ['\\', 't']
  else if c = '\x00' then ['\\', '0']
  else if isExtending c || !isPrintable c then
    ['\\', 'u', '\x7b'] ++ hexDigits c.toNat ++ ['\x7d']
  else [c]

/-- The characters of a quoted text, the quotes included. -/
def quoteChars (cs : List Char) : List Char := '"' :: cs.flatMap quoteChar ++ ['"']

def quote (text : String) : String := String.ofList (quoteChars text.toList)

example : quote "it's \"é\"\n" = "\"it's \\\"é\\\"\\n\"" := by decide +kernel

example : quote "a\u0301\x07" = "\"a\\u\x7b301\x7d\\u\x7b7\x7d\"" := by decide +kernel

example : quote "\uff76\uff9e\u3164" = "\"\uff76\uff9e\\u\x7b3164\x7d\"" := by decide +kernel

end FormRules.Text
