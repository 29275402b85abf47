import FormRules.Json.Basic

/-!
# Writing JSON

A value is written on one line without spaces, or on many lines with two spaces of indentation a
level. Only what a JSON text cannot hold is escaped, so letters of every script stand as they are.
-/

namespace FormRules.Json

def escapeChar (c : Char) : List Char :=
  if c = '"' then ['\\', '"']
  else if c = '\\' then ['\\', '\\']
  else if c = '\x08' then ['\\', 'b']
  else if c = '\x0c' then ['\\', 'f']
  else if c = '\n' then ['\\', 'n']
  else if c = '\r' then ['\\', 'r']
  else if c = '\t' then ['\\', 't']
  else if c.toNat < 32 then
    let digits := Nat.toDigits 16 c.toNat
    ['\\', 'u'] ++ List.replicate (4 - digits.length) '0' ++ digits
  else [c]

def escape (content : String) : String :=
  String.ofList ('"' :: content.toList.flatMap escapeChar ++ ['"'])

mutual

def compact : Json → String
  | .null => "null"
  | .boolean true => "true"
  | .boolean false => "false"
  | .number value => value.render
  | .text content => escape content
  | .array items => "[" ++ compactItems items ++ "]"
  | .object entries => "\x7b" ++ compactEntries entries ++ "\x7d"

def compactItems : List Json → String
  | [] => ""
  | [item] => item.compact
  | item :: rest => item.compact ++ "," ++ compactItems rest

def compactEntries : List (String × Json) → String
  | [] => ""
  | [(key, value)] => escape key ++ ":" ++ value.compact
  | (key, value) :: rest => escape key ++ ":" ++ value.compact ++ "," ++ compactEntries rest

end

/-- A line break and the spaces of a level. -/
def newline (level : Nat) : String := String.ofList ('\n' :: List.replicate (2 * level) ' ')

mutual

/-- A value on many lines, its own lines standing at the given level. -/
def prettyAt (level : Nat) : Json → String
  | .array [] => "[]"
  | .array items => "[" ++ prettyItems (level + 1) items ++ newline level ++ "]"
  | .object [] => "\x7b\x7d"
  | .object entries => "\x7b" ++ prettyEntries (level + 1) entries ++ newline level ++ "\x7d"
  | .null => "null"
  | .boolean true => "true"
  | .boolean false => "false"
  | .number value => value.render
  | .text content => escape content

def prettyItems (level : Nat) : List Json → String
  | [] => ""
  | [item] => newline level ++ prettyAt level item
  | item :: rest => newline level ++ prettyAt level item ++ "," ++ prettyItems level rest

def prettyEntries (level : Nat) : List (String × Json) → String
  | [] => ""
  | [(key, value)] => newline level ++ escape key ++ ": " ++ prettyAt level value
  | (key, value) :: rest =>
    newline level ++ escape key ++ ": " ++ prettyAt level value ++ "," ++ prettyEntries level rest

end

def pretty (value : Json) : String := prettyAt 0 value

end FormRules.Json
