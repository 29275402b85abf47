import FormRules.Text.Ahead
import FormRules.Toml.Lexeme
import FormRules.Toml.Number

/-!
# Reading configurations

A TOML text is a list of lines, each of which holds a key with its value or the header of a table.
Arrays and inline tables may be nested up to a limit.
-/

namespace FormRules.Toml

open Text

def inlineTable (pairs : List (List String × Value)) : Option Value :=
  (pairs.foldlM (fun entries pair ↦ insert pair.1 pair.2 .inline entries) []).map
    (.table .inline)

mutual

/-- Reads the value that begins with `c`. -/
def value (depth : Nat) (c : Char) (rest : List Char) : Option (Value × Nat) :=
  if c = '"' || c = '\'' then do
    let (content, width) ← quoted c rest
    return (.text (String.ofList content), width)
  else if c = '[' then do
    require (0 < depth)
    let (values, width) ← items (depth - 1) rest
    return (.array values, width)
  else if c = '\x7b' then do
    require (0 < depth)
    let inner ← ahead (blanks rest) rest
    if inner.first = '\x7d' then return (.table .inline [], inner.used)
    let (found, width) ← pairs (depth - 1) rest
    return (← inlineTable found, width)
  else do
    let run := numericRun (c :: rest)
    let found ← scalar run
    return (found, run.length - 1)
termination_by 2 * rest.length + 1

def items (depth : Nat) (text : List Char) : Option (List Value × Nat) := do
  let ⟨c, rest, used, _⟩ ← ahead (gap false text) text
  if c = ']' then return ([], used)
  let (first, width) ← value depth c rest
  let rest₁ := rest.drop width
  let ⟨mark, rest₂, used₂, _⟩ ← ahead (gap false rest₁) rest₁
  let used := used + width + used₂
  if mark = ']' then return ([first], used)
  require (mark = ',')
  let (others, width₃) ← items depth rest₂
  return (first :: others, used + width₃)
termination_by 2 * text.length
decreasing_by
  · omega
  · simp only [rest₁, List.length_drop] at *
    omega

def pairs (depth : Nat) (text : List Char) : Option (List (List String × Value) × Nat) := do
  let (name, width) ← key text
  let rest₁ := text.drop width
  let ⟨equals, rest₂, used₂, _⟩ ← ahead 0 rest₁
  require (equals = '=')
  let ⟨c, rest₃, used₃, _⟩ ← ahead (blanks rest₂) rest₂
  let (first, width₃) ← value depth c rest₃
  let rest₄ := rest₃.drop width₃
  let ⟨mark, rest₅, used₅, _⟩ ← ahead (blanks rest₄) rest₄
  let used := width + used₂ + used₃ + width₃ + used₅
  if mark = '\x7d' then return ([(name, first)], used)
  require (mark = ',')
  let (others, width₆) ← pairs depth rest₅
  return ((name, first) :: others, used + width₆)
termination_by 2 * text.length
decreasing_by
  · simp only [rest₁, List.length_drop] at *
    omega
  · simp only [rest₁, rest₄, List.length_drop] at *
    omega

end

/-- What has been read of a text: all entries, and the header that the next lines belong to. -/
structure State where
  entries : Entries
  path : List String

/-- Reads a line that holds a header, of which the first bracket has been taken. -/
def headerLine (text : List Char) (state : State) : Option (State × Nat) := do
  let double := text.head? = some '['
  let brackets := if double then 1 else 0
  let (path, width) ← key (text.drop brackets)
  let used := brackets + width
  require ((text.drop used).take (brackets + 1) = List.replicate (brackets + 1) ']')
  let entries ← if double then openElement path state.entries else openTable path state.entries
  return (⟨entries, path⟩, used + brackets + 1)

def entryLine (text : List Char) (state : State) : Option (State × Nat) := do
  let (name, width) ← key text
  let rest := text.drop width
  require (rest.head? = some '=')
  let ⟨c, rest, used, _⟩ ← ahead (blanks (rest.drop 1)) (rest.drop 1)
  let (found, width₂) ← value (limit - 1) c rest
  let entries ← insertAt state.path name found state.entries
  return (⟨entries, state.path⟩, width + 1 + used + width₂)

def lines (text : List Char) (state : State) : Option State :=
  match text with
  | [] => some state
  | c :: rest =>
    if 0 < lineBreak text || isBlank c || c = '#' then do
      let width ← if isBlank c then some 1 else lineEnd text
      lines (rest.drop (width - 1)) state
    else do
      let (state, width) ← if c = '[' then
          (headerLine rest state).map fun (state, width) ↦ (state, width + 1)
        else entryLine text state
      let more ← lineEnd (text.drop width)
      lines (rest.drop (width + more - 1)) state
termination_by text.length
decreasing_by
  · simp only [List.length_drop, List.length_cons]
    omega
  · simp only [List.length_drop, List.length_cons]
    omega

/-- The entries of a whole text. A mark of the byte order at its beginning is passed over. -/
def read? (text : String) : Option Entries :=
  let text :=
    match text.toList with
    | c :: rest => if c.toNat = 0xfeff then rest else c :: rest
    | [] => []
  (lines text ⟨[], []⟩).map State.entries

end FormRules.Toml
