import FormRules.Number.Shortest

/-!
# Decimal text

The two ways in which a decimal is written: with its point in place, or with one digit before the
point and a power of ten. The first is for numbers of ordinary size and the second for all others.
-/

namespace FormRules.Decimal

/-- The digits before any point is set. -/
def digitChars (d : Decimal) : List Char := Nat.toDigits 10 d.digits

/-- How many digits stand before the point, negative when zeros follow the point first. -/
def pointPlace (d : Decimal) : Int := d.digitChars.length + d.exponent

/-- The decimal with its point in place and at least one digit on either side of it. -/
def positional (d : Decimal) : List Char :=
  if 0 ≤ d.exponent then
    d.digitChars ++ List.replicate d.exponent.toNat '0' ++ ['.', '0']
  else if 0 < d.pointPlace then
    d.digitChars.take d.pointPlace.toNat ++ '.' :: d.digitChars.drop d.pointPlace.toNat
  else
    '0' :: '.' :: List.replicate (-d.pointPlace).toNat '0' ++ d.digitChars

/-- The decimal with one digit before the point, if more follow, and a power of ten with its
sign. -/
def scientific (d : Decimal) : List Char :=
  let power := d.pointPlace - 1
  let power := (if power < 0 then '-' else '+') :: Nat.toDigits 10 power.natAbs
  match d.digitChars with
  | first :: second :: more => first :: '.' :: second :: more ++ 'e' :: power
  | digits => digits ++ 'e' :: power

/-- The decimal in the way that suits its size: positional when the point falls
among the first sixteen digits or at most four zeros stand after it. -/
def compact (d : Decimal) : List Char :=
  if (0 < d.pointPlace && d.pointPlace ≤ 16) || (-5 < d.pointPlace && d.pointPlace ≤ 0) then
    d.positional
  else d.scientific

example : String.ofList (Decimal.positional ⟨15, -1⟩) = "1.5" := by decide +kernel

example : String.ofList (Decimal.positional ⟨15, -4⟩) = "0.0015" := by decide +kernel

example : String.ofList (Decimal.compact ⟨1, 2⟩) = "100.0" := by decide +kernel

example : String.ofList (Decimal.compact ⟨125, 20⟩) = "1.25e+22" := by decide +kernel

example : String.ofList (Decimal.compact ⟨15, -8⟩) = "1.5e-7" := by decide +kernel

end FormRules.Decimal
