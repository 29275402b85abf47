import FormRules.Json.Basic
import FormRules.Keyed.Entries
import FormRules.Text.Ahead
import FormRules.Text.Hex

/-!
# Reading JSON

Each reader is given the first character of a piece of text and all that follows it, and answers
with what the piece means and how many of the following characters belong to it. Reading goes on
with those dropped, so it ends. Arrays and objects may be nested up to a limit, and where an object
repeats a key, the last value takes the first one's place.
-/

namespace FormRules.Json

open Text (require)

namespace Reader

/-- How deeply arrays and objects may be nested. -/
def maxDepth : Nat := 127

def isSpace (c : Char) : Bool := c = ' ' || c = '\n' || c = '\t' || c = '\r'

def spaces (text : List Char) : Nat := (text.takeWhile isSpace).length

def escapeValue (c : Char) : Option Char :=
  if c = '"' || c = '\\' || c = '/' then some c
  else if c = 'b' then some '\x08'
  else if c = 'f' then some '\x0c'
  else if c = 'n' then some '\n'
  else if c = 'r' then some '\r'
  else if c = 't' then some '\t'
  else none

/-- The character that two surrogates stand for. -/
def surrogatePair (high low : Nat) : Option Char :=
  if 0xd800 ≤ high && high < 0xdc00 && 0xdc00 ≤ low && low < 0xe000 then
    some (Char.ofNat (0x10000 + (high - 0xd800) * 0x400 + (low - 0xdc00)))
  else none

/-- The content of a text whose opening quote has been taken, and how many characters it spans up
to and with the closing quote. -/
def quotedContent : List Char → Option (List Char × Nat)
  | '"' :: _ => some ([], 1)
  | '\\' :: 'u' :: a :: b :: c :: d :: rest =>
    match Text.hexNumber [a, b, c, d] with
    | none => none
    | some code =>
      match Text.scalar? code with
      | some single =>
        (quotedContent rest).map fun (content, width) ↦ (single :: content, width + 6)
      | none =>
        match rest with
        | '\\' :: 'u' :: e :: f :: g :: h :: rest' =>
          match (Text.hexNumber [e, f, g, h]).bind (surrogatePair code) with
          | none => none
          | some pair =>
            (quotedContent rest').map fun (content, width) ↦ (pair :: content, width + 12)
        | _ => none
  | '\\' :: c :: rest =>
    match escapeValue c with
    | none => none
    | some value => (quotedContent rest).map fun (content, width) ↦ (value :: content, width + 2)
  | c :: rest =>
    if c.toNat < 32 || c = '\\' then none
    else (quotedContent rest).map fun (content, width) ↦ (c :: content, width + 1)
  | [] => none

/-- The parts of a number as it is written. -/
structure Numeral where
  negative : Bool
  whole : List Char
  fraction : Option (List Char)
  power : Option Int
deriving Repr

namespace Numeral

/-- Adds decimal digits to a significand as long as it stays below `2 ^ 64`, and tells how many
digits were left over. -/
def absorb (significand : Nat) : List Char → Nat × Nat
  | [] => (significand, 0)
  | c :: rest =>
    let next := 10 * significand + (c.toNat - '0'.toNat)
    if next < Nat.pow 2 64 then absorb next rest else (significand, rest.length + 1)

/-- The number that a numeral denotes, unless it is too great. A numeral without fraction and
power of ten is an integer if it fits into 64 bits; minus zero is not an integer. -/
def value (n : Numeral) : Option JsonNumber :=
  let (whole, left) := absorb 0 n.whole
  if left = 0 && n.fraction.isNone && n.power.isNone && !n.negative then
    some (.integer whole)
  else if left = 0 && n.fraction.isNone && n.power.isNone &&
      0 < whole && whole ≤ Nat.pow 2 63 then
    some (.integer (-whole))
  else
    let fraction := n.fraction.getD []
    let (significand, leftOver) := absorb whole fraction
    let exponent : Int := left - (fraction.length - leftOver : Int) + n.power.getD 0
    (Magnitude.ofDecimal significand exponent).map (.double n.negative)

end Numeral

def digitRun (text : List Char) : Option (List Char) :=
  match text.takeWhile Char.isDigit with
  | [] => none
  | digits => some digits

/-- The power of ten of a numeral, and how many characters it spans. -/
def powerPart : List Char → Option (Option Int × Nat)
  | mark :: rest =>
    if mark = 'e' || mark = 'E' then
      let (negative, signs) :=
        match rest with
        | '-' :: _ => (true, 1)
        | '+' :: _ => (false, 1)
        | _ => (false, 0)
      match digitRun (rest.drop signs) with
      | none => none
      | some digits =>
        let power : Int := digits.foldl (fun n c ↦ 10 * n + (c.toNat - '0'.toNat)) 0
        some (some (if negative then -power else power), 1 + signs + digits.length)
    else some (none, 0)
  | [] => some (none, 0)

def fractionPart : List Char → Option (Option (List Char) × Nat)
  | '.' :: rest => (digitRun rest).map fun digits ↦ (some digits, 1 + digits.length)
  | _ => some (none, 0)

/-- The numeral that a text begins with, and how many characters it spans. -/
def numeral (text : List Char) : Option (Numeral × Nat) := do
  let (negative, signs) :=
    match text with
    | '-' :: _ => (true, 1)
    | _ => (false, 0)
  let text := text.drop signs
  let whole ← digitRun text
  if whole.head? = some '0' && 1 < whole.length then none
  else
    let text := text.drop whole.length
    let (fraction, width) ← fractionPart text
    let (power, width') ← powerPart (text.drop width)
    return (⟨negative, whole, fraction, power⟩, signs + whole.length + width + width')

/-- The value of a word that stands alone. -/
def wordValue (word : String) (value : Json) (text : List Char) : Option (Json × Nat) :=
  if word.toList.isPrefixOf text then some (value, word.length - 1) else none

def next (text : List Char) : Option (Text.Ahead text) := Text.ahead (spaces text) text

mutual

/-- Reads the value that begins with `c`. -/
def value (depth : Nat) (c : Char) (rest : List Char) : Option (Json × Nat) :=
  if c = '"' then
    (quotedContent rest).map fun (content, width) ↦ (.text (String.ofList content), width)
  else if c = '[' then do
    require (0 < depth)
    let ⟨c₁, rest₁, used, _⟩ ← next rest
    if c₁ = ']' then return (.array [], used)
    let (values, width) ← items (depth - 1) c₁ rest₁
    return (.array values, used + width)
  else if c = '\x7b' then do
    require (0 < depth)
    let ⟨c₁, rest₁, used, _⟩ ← next rest
    if c₁ = '\x7d' then return (.object [], used)
    let (pairs, width) ← entries (depth - 1) c₁ rest₁
    return (.object (Keyed.ofList pairs), used + width)
  else if c = 't' then wordValue "true" (.boolean true) (c :: rest)
  else if c = 'f' then wordValue "false" (.boolean false) (c :: rest)
  else if c = 'n' then wordValue "null" .null (c :: rest)
  else do
    let (written, width) ← numeral (c :: rest)
    let number ← written.value
    return (.number number, width - 1)
termination_by 2 * rest.length

/-- Reads the values of an array up to its closing bracket, the first beginning with `c`. -/
def items (depth : Nat) (c : Char) (rest : List Char) : Option (List Json × Nat) := do
  let (first, width) ← value depth c rest
  let ⟨mark, rest₁, used₁, _⟩ ← next (rest.drop width)
  if mark = ']' then return ([first], width + used₁)
  require (mark = ',')
  let ⟨c₂, rest₂, used₂, _⟩ ← next rest₁
  let (others, width₂) ← items depth c₂ rest₂
  return (first :: others, width + used₁ + used₂ + width₂)
termination_by 2 * rest.length + 1
decreasing_by
  · omega
  · simp only [List.length_drop] at *
    omega

def entries (depth : Nat) (c : Char) (rest : List Char) :
    Option (List (String × Json) × Nat) := do
  require (c = '"')
  let (key, width) ← quotedContent rest
  let ⟨colon, rest₁, used₁, _⟩ ← next (rest.drop width)
  require (colon = ':')
  let ⟨c₂, rest₂, used₂, _⟩ ← next rest₁
  let (first, width₂) ← value depth c₂ rest₂
  let ⟨mark, rest₃, used₃, _⟩ ← next (rest₂.drop width₂)
  let used := width + used₁ + used₂ + width₂ + used₃
  if mark = '\x7d' then return ([(String.ofList key, first)], used)
  require (mark = ',')
  let ⟨c₄, rest₄, used₄, _⟩ ← next rest₃
  let (others, width₄) ← entries depth c₄ rest₄
  return ((String.ofList key, first) :: others, used + used₄ + width₄)
termination_by 2 * rest.length + 1
decreasing_by
  · simp only [List.length_drop] at *
    omega
  · simp only [List.length_drop] at *
    omega

end

end Reader

def read? (text : String) : Option Json := do
  let ⟨c, rest, _, _⟩ ← Reader.next text.toList
  let (result, width) ← Reader.value Reader.maxDepth c rest
  require ((rest.drop width).all Reader.isSpace)
  return result

end FormRules.Json
