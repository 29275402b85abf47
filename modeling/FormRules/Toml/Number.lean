import FormRules.Number.Magnitude
import FormRules.Text.Ahead
import FormRules.Text.Hex
import FormRules.Toml.Basic

/-!
# Configuration numbers

Numbers, dates and times are written without blanks, except that a blank may part a date from a
time. So the characters that may stand in one are taken together, and then have to be one.
-/

namespace FormRules.Toml

open Text (require)

def isNumeric (c : Char) : Bool :=
  c.isAlphanum || c = '+' || c = '-' || c = '.' || c = ':' || c = '_'

/-- Digits without the underscores that may stand between any two of them. -/
def ungrouped (isDigit : Char → Bool) : List Char → Option (List Char)
  | [] => none
  | [c] => if isDigit c then some [c] else none
  | c :: '_' :: rest => if isDigit c then (ungrouped isDigit rest).map (c :: ·) else none
  | c :: rest => if isDigit c then (ungrouped isDigit rest).map (c :: ·) else none

def wholeDigits (text : List Char) : Option (List Char) := do
  let digits ← ungrouped Char.isDigit text
  require (digits.length = 1 ∨ digits.head? ≠ some '0')
  return digits

def decimal (digits : List Char) : Nat :=
  digits.foldl (fun n c ↦ 10 * n + (c.toNat - '0'.toNat)) 0

def signed : List Char → Bool × List Char
  | '-' :: rest => (true, rest)
  | '+' :: rest => (false, rest)
  | text => (false, text)

/-- A number in a base other than ten, which has no sign. -/
def based (base : Nat) (text : List Char) : Option Int := do
  let digits ← ungrouped (fun c ↦ (Text.hexValue c).any (· < base)) text
  let n := digits.foldl (fun n c ↦ base * n + (Text.hexValue c).getD 0) 0
  require (n < Nat.pow 2 63)
  return n

def integer : List Char → Option Int
  | '0' :: 'x' :: rest => based 16 rest
  | '0' :: 'o' :: rest => based 8 rest
  | '0' :: 'b' :: rest => based 2 rest
  | text => do
    let (negative, text) := signed text
    let n := decimal (← wholeDigits text)
    require (if negative then n ≤ Nat.pow 2 63 else n < Nat.pow 2 63)
    return if negative then -n else n

/-- The digits of a fraction with the point before them, none if there is no point. -/
def fraction : List Char → Option (List Char)
  | [] => some []
  | '.' :: rest => ungrouped Char.isDigit rest
  | _ => none

def power (text : List Char) : Option Int := do
  let (negative, text) := signed text
  let n := decimal (← ungrouped Char.isDigit text)
  return if negative then -n else n

/-- Whether a decimal number is beyond all doubles. -/
def isTooGreat (digits : List Char) (exponent : Int) : Bool :=
  let significand := decimal digits
  if significand = 0 then false
  else if 400 < exponent then true
  else if 0 ≤ exponent then (Magnitude.ofRatio (significand * Nat.pow 10 exponent.toNat) 1).isNone
  else if (digits.length : Int) < -exponent then false
  else (Magnitude.ofRatio significand (Nat.pow 10 (-exponent).toNat)).isNone

/-- Whether a text is a number with a fraction or an exponent. A positive one must not be beyond
all doubles. -/
def isFloat (text : List Char) : Bool :=
  let (negative, text) := signed text
  let mantissa := text.takeWhile fun c ↦ c ≠ 'e' && c ≠ 'E'
  let whole := mantissa.takeWhile (· ≠ '.')
  let marked := text.drop mantissa.length
  let answer : Option Bool := do
    let wholeDigits ← wholeDigits whole
    let fractionDigits ← fraction (mantissa.drop whole.length)
    let exponent ← if marked.isEmpty then some 0 else power (marked.drop 1)
    require ¬(fractionDigits.isEmpty ∧ marked.isEmpty)
    return negative ||
      !isTooGreat (wholeDigits ++ fractionDigits) (exponent - fractionDigits.length)
  answer.getD false

def isBetween (least greatest : Nat) (a b : Char) : Bool :=
  a.isDigit && b.isDigit && least ≤ decimal [a, b] && decimal [a, b] ≤ greatest

def daysOf (year month : Nat) : Nat :=
  if month = 2 then
    if year % 4 = 0 && (year % 100 ≠ 0 || year % 400 = 0) then 29 else 28
  else if month ∈ [4, 6, 9, 11] then 30
  else 31

/-- A date at the beginning of a text, and what follows it. -/
def afterDate : List Char → Option (List Char)
  | a :: b :: c :: d :: '-' :: e :: f :: '-' :: g :: h :: rest =>
    if [a, b, c, d].all Char.isDigit && isBetween 1 12 e f &&
        isBetween 1 (daysOf (decimal [a, b, c, d]) (decimal [e, f])) g h then
      some rest
    else none
  | _ => none

def afterTime : List Char → Option (List Char)
  | a :: b :: ':' :: c :: d :: ':' :: e :: f :: rest =>
    if isBetween 0 23 a b && isBetween 0 59 c d && isBetween 0 60 e f then
      match rest with
      | '.' :: rest =>
        match rest.takeWhile Char.isDigit with
        | [] => none
        | digits => some (rest.drop digits.length)
      | rest => some rest
    else none
  | _ => none

/-- Whether a text is nothing or the offset of a time zone. -/
def isOffset : List Char → Bool
  | [] | ['Z'] | ['z'] => true
  | [sign, a, b, ':', c, d] =>
    (sign = '+' || sign = '-') && isBetween 0 23 a b && isBetween 0 59 c d
  | _ => false

def isDatetime (text : List Char) : Bool :=
  match afterDate text with
  | some [] => true
  | some (mark :: rest) =>
    (mark = 'T' || mark = 't' || mark = ' ') && (afterTime rest).any isOffset
  | none => (afterTime text).any List.isEmpty

/-- The characters that make a number, date, time or word together. -/
def numericRun (text : List Char) : List Char :=
  let run := text.takeWhile isNumeric
  match afterDate run, text.drop run.length with
  | some [], ' ' :: c :: rest =>
    if c.isDigit then run ++ ' ' :: c :: rest.takeWhile isNumeric else run
  | _, _ => run

def scalar (text : List Char) : Option Value :=
  let written := String.ofList text
  if written = "true" then some (.boolean true)
  else if written = "false" then some (.boolean false)
  else if (signed text).2 = ['i', 'n', 'f'] || (signed text).2 = ['n', 'a', 'n'] then
    some (.float written)
  else if isDatetime text then some (.datetime written)
  else if isFloat text then some (.float written)
  else (integer text).map .integer

end FormRules.Toml
