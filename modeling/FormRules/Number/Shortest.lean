import FormRules.Number.Magnitude

/-!
# Shortest decimals

The fewest decimal digits that still name a magnitude: among the decimals that round to it, those
with the fewest digits, and among these the nearest. Grids of decimals are tried from the coarsest
to the finest, and on a grid only the two neighbours of the magnitude can be nearest.
-/

namespace FormRules

/-- The number `digits * 10 ^ exponent`. -/
structure Decimal where
  digits : Nat
  exponent : Int
deriving DecidableEq, Repr, Inhabited

namespace Magnitude

/-- The ratios, over the denominator `den`, between which all numbers round to one magnitude. -/
structure Interval where
  lower : Nat
  value : Nat
  upper : Nat
  den : Nat
  /-- Whether the two ends round to it as well. -/
  closed : Bool
deriving DecidableEq, Repr

/-- The numbers that round to a magnitude. Below a power of two the neighbour is nearer. -/
def interval (m : Magnitude) : Interval :=
  let below := if m.mantissa = Nat.pow 2 52 && m.exponent ≠ leastExponent then 1 else 2
  let shift := m.exponent - 2
  let (scale, den) :=
    if 0 ≤ shift then (Nat.pow 2 shift.toNat, 1) else (1, Nat.pow 2 (-shift).toNat)
  ⟨(4 * m.mantissa - below) * scale, 4 * m.mantissa * scale, (4 * m.mantissa + 2) * scale, den,
    m.mantissa % 2 = 0⟩

namespace Interval

def contains (i : Interval) (d : Decimal) : Bool :=
  let (point, scale) :=
    if 0 ≤ d.exponent then (d.digits * Nat.pow 10 d.exponent.toNat * i.den, 1)
    else (d.digits * i.den, Nat.pow 10 (-d.exponent).toNat)
  if i.closed then i.lower * scale ≤ point && point ≤ i.upper * scale
  else i.lower * scale < point && point < i.upper * scale

/-- The least power of ten above the value, as an exponent. -/
def ceilTen (i : Interval) : Int :=
  if i.den ≤ i.value then (Nat.toDigits 10 (i.value / i.den)).length
  else 1 - ((Nat.toDigits 10 ((i.den - 1) / i.value)).length : Int)

/-- The decimal of the interval that is nearest to its value among the multiples of
`10 ^ exponent`. -/
def onGrid? (i : Interval) (exponent : Int) : Option Decimal :=
  let (num, den) :=
    if 0 ≤ exponent then (i.value, i.den * Nat.pow 10 exponent.toNat)
    else (i.value * Nat.pow 10 (-exponent).toNat, i.den)
  let nearest : Decimal := ⟨roundRatio num den, exponent⟩
  let floor : Decimal := ⟨num / den, exponent⟩
  let ceil : Decimal := ⟨num / den + 1, exponent⟩
  if i.contains nearest then some nearest
  else if i.contains floor then some floor
  else if i.contains ceil then some ceil
  else none

end Interval

def stripZeros : Nat → Decimal → Decimal
  | 0, d => d
  | n + 1, d => if d.digits % 10 = 0 then stripZeros n ⟨d.digits / 10, d.exponent + 1⟩ else d

/-- The shortest decimal that rounds to a magnitude. Seventeen digits always suffice. -/
def shortest (m : Magnitude) : Decimal :=
  if m.mantissa = 0 then ⟨0, 0⟩
  else
    let i := m.interval
    let top := i.ceilTen
    match (List.range 17).findSome? fun (k : Nat) ↦ i.onGrid? (top - 1 - k) with
    | some d => stripZeros 17 d
    | none => ⟨0, 0⟩

example : (ofDecimal 15 (-1)).map shortest = some ⟨15, -1⟩ := by decide +kernel

example : shortest ⟨1, leastExponent⟩ = ⟨5, -324⟩ := by decide +kernel

end Magnitude

end FormRules
