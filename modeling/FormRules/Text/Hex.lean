/-!
# Characters by number

Escapes give a character by its number in hexadecimal digits. Not every number is a character: the
surrogates and all that lies beyond the last plane are not.
-/

namespace FormRules.Text

def hexValue (c : Char) : Option Nat :=
  if c.isDigit then some (c.toNat - '0'.toNat)
  else if 'a' ≤ c && c ≤ 'f' then some (c.toNat - 'a'.toNat + 10)
  else if 'A' ≤ c && c ≤ 'F' then some (c.toNat - 'A'.toNat + 10)
  else none

def hexNumber (digits : List Char) : Option Nat :=
  digits.foldlM (fun value c ↦ (hexValue c).map (16 * value + ·)) 0

def scalar? (code : Nat) : Option Char :=
  if h : code.isValidChar then some (Char.ofNatAux code h) else none

end FormRules.Text
