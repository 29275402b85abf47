import FormRules.Text.Ahead
import FormRules.Text.Hex

/-!
# Configuration lexemes

White space, comments, quoted texts and keys of a TOML text. Each reader tells how many characters
belong to what it has read.
-/

namespace FormRules.Toml

open Text (require)

def isBlank (c : Char) : Bool := c = ' ' || c = '\t'

/-- Whether comments and quoted texts may hold a character as it is. -/
def isPlain (c : Char) : Bool := c = '\t' || (32 ≤ c.toNat && c.toNat ≠ 127)

def blanks (text : List Char) : Nat := (text.takeWhile isBlank).length

/-- The width of the line break that a text begins with, zero if there is none. -/
def lineBreak : List Char → Nat
  | '\n' :: _ => 1
  | '\r' :: '\n' :: _ => 2
  | _ => 0

def comment : List Char → Nat
  | '#' :: rest => (rest.takeWhile isPlain).length + 1
  | _ => 0

/-- How many characters are left of a line that holds nothing more than a comment, its end
included. -/
def lineEnd (text : List Char) : Option Nat :=
  let used := blanks text
  let used := used + comment (text.drop used)
  match text.drop used with
  | [] => some used
  | rest => if lineBreak rest = 0 then none else some (used + lineBreak rest)

def space : List Char → Nat
  | '\r' :: '\n' :: rest => space rest + 2
  | c :: rest => if isBlank c || c = '\n' then space rest + 1 else 0
  | [] => 0

def gap (inComment : Bool) : List Char → Nat
  | '\r' :: '\n' :: rest => gap false rest + 2
  | c :: rest =>
    if c = '\n' then gap false rest + 1
    else if isBlank c || (inComment && isPlain c) then gap inComment rest + 1
    else if c = '#' then gap true rest + 1
    else 0
  | [] => 0

def escape : List Char → Option (Char × Nat)
  | 'b' :: _ => some ('\x08', 1)
  | 't' :: _ => some ('\t', 1)
  | 'n' :: _ => some ('\n', 1)
  | 'f' :: _ => some ('\x0c', 1)
  | 'r' :: _ => some ('\r', 1)
  | '"' :: _ => some ('"', 1)
  | '\\' :: _ => some ('\\', 1)
  | 'u' :: a :: b :: c :: d :: _ =>
    ((Text.hexNumber [a, b, c, d]).bind Text.scalar?).map (·, 5)
  | 'U' :: a :: b :: c :: d :: e :: f :: g :: h :: _ =>
    ((Text.hexNumber [a, b, c, d, e, f, g, h]).bind Text.scalar?).map (·, 9)
  | _ => none

/-- Puts content before what has been read after it. -/
def before (content : List Char) (width : Nat) (read : Option (List Char × Nat)) :
    Option (List Char × Nat) :=
  read.map fun (rest, used) ↦ (content ++ rest, used + width)

/-- A text in double quotes of which the first has been taken. -/
def basic (text : List Char) : Option (List Char × Nat) :=
  match text with
  | [] => none
  | c :: rest =>
    if c = '"' then some ([], 1)
    else if c = '\\' then do
      let (c, width) ← escape rest
      before [c] (width + 1) (basic (rest.drop width))
    else if isPlain c then before [c] 1 (basic rest)
    else none
termination_by text.length
decreasing_by
  · simp only [List.length_drop, List.length_cons]
    omega
  · simp

/-- A text in single quotes of which the first has been taken. -/
def literal : List Char → Option (List Char × Nat)
  | [] => none
  | c :: rest =>
    if c = '\'' then some ([], 1)
    else if isPlain c then before [c] 1 (literal rest)
    else none

/-- A text in triple quotes of which the first three have been taken. Up to two quotes may touch
the closing ones. -/
def long (quote : Char) (text : List Char) : Option (List Char × Nat) :=
  match text with
  | [] => none
  | c :: rest =>
    if c = quote then
      let more := (rest.takeWhile (· = quote)).length
      if more < 2 then
        before (c :: List.replicate more quote) (more + 1) (long quote (rest.drop more))
      else if more ≤ 4 then some (List.replicate (more - 2) quote, more + 1)
      else none
    else if c = '\\' && quote = '"' then
      if 0 < lineBreak (rest.drop (blanks rest)) then
        before [] (space rest + 1) (long quote (rest.drop (space rest)))
      else do
        let (c, width) ← escape rest
        before [c] (width + 1) (long quote (rest.drop width))
    else if c = '\n' || isPlain c then before [c] 1 (long quote rest)
    else if c = '\r' && rest.head? = some '\n' then before [] 1 (long quote rest)
    else none
termination_by text.length
decreasing_by
  all_goals
    simp only [List.length_drop, List.length_cons]
    omega

def quoted (quote : Char) (text : List Char) : Option (List Char × Nat) :=
  match text with
  | a :: b :: rest =>
    if a = quote ∧ b = quote then
      before [] (lineBreak rest + 2) (long quote (rest.drop (lineBreak rest)))
    else if quote = '"' then basic text
    else literal text
  | _ => if quote = '"' then basic text else literal text

def isBare (c : Char) : Bool := c.isAlphanum || c = '-' || c = '_'

/-- One part of a key, which is no long text. -/
def keyPart (text : List Char) : Option (List Char × Nat) :=
  match text with
  | '"' :: rest => before [] 1 (basic rest)
  | '\'' :: rest => before [] 1 (literal rest)
  | text =>
    match text.takeWhile isBare with
    | [] => none
    | bare => some (bare, bare.length)

/-- How many parts a key may have, and one more than how deeply values may be nested. -/
def limit : Nat := 80

def keyParts (text : List Char) : Option (List String × Nat) := do
  let text₁ := text.drop (blanks text)
  let (part, width) ← keyPart text₁
  let text₂ := text₁.drop width
  let used := blanks text + width + blanks text₂
  match _ : text₂.drop (blanks text₂) with
  | '.' :: rest =>
    let (others, width) ← keyParts rest
    return (String.ofList part :: others, used + 1 + width)
  | _ => return ([String.ofList part], used)
termination_by text.length
decreasing_by
  rename_i h
  have := congrArg List.length h
  simp only [text₂, text₁, List.length_drop, List.length_cons] at this
  omega

def key (text : List Char) : Option (List String × Nat) := do
  let (parts, width) ← keyParts text
  require (parts.length < limit)
  return (parts, width)

end FormRules.Toml
