import FormRules.Text.CharRange

/-!
# Blank characters

The characters with the property White_Space. They separate the tokens of an expression, and a
text made of nothing else is an empty expression.
-/

namespace FormRules.Text

def blankRanges : List (Nat × Nat) :=
  [(0x9, 0xd), (0x20, 0x20), (0x85, 0x85), (0xa0, 0xa0), (0x1680, 0x1680), (0x2000, 0x200a),
   (0x2028, 0x2029), (0x202f, 0x202f), (0x205f, 0x205f), (0x3000, 0x3000)]

def isBlank (c : Char) : Bool := inRanges blankRanges c.toNat

end FormRules.Text
