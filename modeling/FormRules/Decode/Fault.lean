import FormRules.Json.Basic
import FormRules.Text.Quoted

/-!
# Decoding faults

Why a JSON value is not what was asked for. A fault holds what was found and what was expected, and
the wording lives here alone.
-/

namespace FormRules

namespace Json

/-- What is seen of a value from outside. -/
inductive Outline where
  | null
  | boolean (value : Bool)
  | number (value : JsonNumber)
  | text (content : String)
  | array
  | object
deriving DecidableEq, Repr

/-- A value without its parts. -/
def outline : Json → Outline
  | .null => .null
  | .boolean value => .boolean value
  | .number value => .number value
  | .text content => .text content
  | .array _ => .array
  | .object _ => .object

def Outline.describe : Outline → String
  | .null => "null"
  | .boolean value => s!"boolean `{value}`"
  | .number value =>
    match value with
    | .integer _ => s!"integer `{value.render}`"
    | .double _ _ => s!"floating point `{value.render}`"
  | .text content => "string " ++ Text.quote content
  | .array => "sequence"
  | .object => "map"

def Outline.kind : Outline → String
  | .null => "null"
  | .boolean _ => "boolean"
  | .number _ => "number"
  | .text _ => "string"
  | .array => "array"
  | .object => "object"

end Json

namespace Decode

/-- What a value should have been. -/
inductive Expected where
  | text
  | boolean
  | object
  | array
  /-- An array that is read as a set. -/
  | set
  | natural
  | null
  /-- The name of a case, or an object with that name as its only key. -/
  | caseName
  | singleEntry
  | tag
  /-- The place of a tag among `count` tags. -/
  | tagIndex (count : Nat)
  | tagged (title : String)
  | record (title : String)
  /-- A record that is written as an array of at least its `count` members. -/
  | members (title : String) (count : Nat)
  | fewerItems
  | exactItems (count : Nat)
  | pair
deriving DecidableEq, Repr

def elements (count : Nat) : String :=
  if count = 1 then "1 element" else s!"{count} elements"

def Expected.describe : Expected → String
  | .text => "a string"
  | .boolean => "a boolean"
  | .object => "a map"
  | .array => "a sequence"
  | .set => "a set"
  | .natural => "usize"
  | .null => "unit"
  | .caseName => "string or map"
  | .singleEntry => "map with a single key"
  | .tag => "variant identifier"
  | .tagIndex count => s!"variant index 0 <= i < {count}"
  | .tagged title => s!"internally tagged enum {title}"
  | .record title => title
  | .members title count => s!"{title} with {elements count}"
  | .fewerItems => "fewer elements in array"
  | .exactItems count => s!"{elements count} in sequence"
  | .pair => "a tuple of size 2"

inductive Fault where
  | kind (found : Json.Outline) (expected : Expected)
  /-- A value of the right kind that does not fit. -/
  | value (found : Json.Outline) (expected : Expected)
  | length (found : Nat) (expected : Expected)
  | unknownCase (found : String) (known : List String)
  | missing (member : String)
  /-- None of several alternatives fits. -/
  | noAlternative (title : String)
deriving DecidableEq, Repr

def Fault.message : Fault → String
  | .kind found expected => s!"invalid type: {found.describe}, expected {expected.describe}"
  | .value found expected => s!"invalid value: {found.describe}, expected {expected.describe}"
  | .length found expected => s!"invalid length {found}, expected {expected.describe}"
  | .unknownCase found known =>
    let names := ", ".intercalate (known.map fun name ↦ s!"`{name}`")
    s!"unknown variant `{found}`, expected one of {names}"
  | .missing member => s!"missing field `{member}`"
  | .noAlternative title => s!"data did not match any variant of untagged enum {title}"

end Decode

end FormRules
