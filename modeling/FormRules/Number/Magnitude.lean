/-!
# Magnitudes

The nonnegative finite numbers of the 64-bit binary format, as exact products of a mantissa and a
power of two. Every operation computes the exact ratio first and rounds it once: to the nearest
magnitude, a tie going to the even mantissa.
-/

namespace FormRules

/-- The number `mantissa * 2 ^ exponent`. The mantissa is below `2 ^ 53`, and is at least `2 ^ 52`
unless the exponent is the least one. -/
structure Magnitude where
  mantissa : Nat
  exponent : Int
deriving DecidableEq, Repr, Inhabited

namespace Magnitude

def leastExponent : Int := -1074

def greatestExponent : Int := 971

def zero : Magnitude := ⟨0, leastExponent⟩

/-- The natural number nearest to a ratio, a tie going to the even one. -/
def roundRatio (num den : Nat) : Nat :=
  let quotient := num / den
  let twice := 2 * (num % den)
  if twice < den || (twice = den && quotient % 2 = 0) then quotient else quotient + 1

/-- The greatest `k` with `2 ^ k` at most the positive ratio `num / den`. -/
def floorLog (num den : Nat) : Int :=
  let guess : Int := (num.log2 : Int) - den.log2
  let reached :=
    if 0 ≤ guess then den * Nat.pow 2 guess.toNat ≤ num
    else den ≤ num * Nat.pow 2 (-guess).toNat
  if reached then guess else guess - 1

/-- The magnitude nearest to a ratio, if the ratio is not too great. -/
def ofRatio (num den : Nat) : Option Magnitude :=
  if num = 0 then some zero
  else
    let exponent := max (floorLog num den - 52) leastExponent
    let mantissa :=
      if 0 ≤ exponent then roundRatio num (den * Nat.pow 2 exponent.toNat)
      else roundRatio (num * Nat.pow 2 (-exponent).toNat) den
    let (mantissa, exponent) :=
      if mantissa = Nat.pow 2 53 then (Nat.pow 2 52, exponent + 1) else (mantissa, exponent)
    if exponent ≤ greatestExponent then some ⟨mantissa, exponent⟩ else none

/-- The magnitude nearest to `num / den * 2 ^ exponent`. -/
def ofScaledRatio (num den : Nat) (exponent : Int) : Option Magnitude :=
  if 0 ≤ exponent then ofRatio (num * Nat.pow 2 exponent.toNat) den
  else ofRatio num (den * Nat.pow 2 (-exponent).toNat)

def product (a b : Magnitude) : Option Magnitude :=
  ofScaledRatio (a.mantissa * b.mantissa) 1 (a.exponent + b.exponent)

def quotient (a b : Magnitude) : Option Magnitude :=
  ofScaledRatio a.mantissa b.mantissa (a.exponent - b.exponent)

/-- The greatest power of ten that has a magnitude. -/
def greatestTen : Nat := 308

/-- The magnitude of `significand * 10 ^ exponent`. Significand and power of ten are rounded apart
and joined by one product or quotient, so the result may miss the nearest magnitude by one place.
A power of ten below the least one is reached in two quotients. -/
def ofDecimal (significand : Nat) (exponent : Int) : Option Magnitude := do
  let whole ← ofRatio significand 1
  if significand = 0 then return zero
  else if 0 ≤ exponent then
    if exponent ≤ greatestTen then whole.product (← ofRatio (Nat.pow 10 exponent.toNat) 1)
    else none
  else if -(greatestTen : Int) ≤ exponent then
    whole.quotient (← ofRatio (Nat.pow 10 (-exponent).toNat) 1)
  else if -2 * (greatestTen : Int) ≤ exponent then
    let smaller ← whole.quotient (← ofRatio (Nat.pow 10 greatestTen) 1)
    smaller.quotient (← ofRatio (Nat.pow 10 (-(exponent + greatestTen)).toNat) 1)
  else return zero

example : ofDecimal 15 (-1) = some ⟨3 * 2 ^ 51, -52⟩ := by decide +kernel

example : ofDecimal 17 307 = some ⟨8517715530038134, 971⟩ := by decide +kernel

example : ofDecimal 18 307 = none := by decide +kernel

end Magnitude

end FormRules
