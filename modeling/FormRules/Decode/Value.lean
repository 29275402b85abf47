import FormRules.Decode.Fault

/-!
# Decoding plain values

Readers of texts, truth values, numbers, arrays and objects, and of the name of a case. A value may
stand on its own or within an artifact, which decides some details of what is accepted.
-/

namespace FormRules.Decode

/-- Where a value stands that is read. -/
inductive Setting where
  | alone
  /-- The value is part of an artifact, and its kind has been looked at before. -/
  | embedded
deriving DecidableEq, Repr

def text : Json → Except Fault String
  | .text content => .ok content
  | value => .error (.kind value.outline .text)

def text? : Json → Except Fault (Option String)
  | .null => .ok none
  | value => some <$> text value

def boolean : Json → Except Fault Bool
  | .boolean value => .ok value
  | value => .error (.kind value.outline .boolean)

def natural : Json → Except Fault Nat
  | .number (.integer (.ofNat n)) => .ok n
  | .number (.integer (.negSucc n)) =>
    .error (.value (.number (.integer (.negSucc n))) .natural)
  | value => .error (.kind value.outline .natural)

def items {α : Type} (value : Json)
    (read : (item : Json) → item.size < value.size → Except Fault α) : Except Fault (List α) :=
  match value with
  | .array items => (Json.itemsWithin items).mapM fun item ↦ read item.1 item.2
  | value => .error (.kind value.outline .array)

def entries {α : Type} (value : Json)
    (read : (part : Json) → part.size < value.size → Except Fault α) :
    Except Fault (List (String × α)) :=
  match value with
  | .object entries =>
    (Json.entriesWithin entries).mapM fun entry ↦
      (fun part ↦ (entry.1, part)) <$> read entry.2.1 entry.2.2
  | value => .error (.kind value.outline .object)

/-- Whether a value may stand for the contents of a case that has none. -/
def isNothing (setting : Setting) : Json → Bool
  | .null => true
  | .object [] => setting = .embedded
  | _ => false

/-- A case without contents: its name, or an object that maps its name to null. -/
def caseName {α : Type} (setting : Setting) (ofName : String → Except Fault α) :
    Json → Except Fault α
  | .text name => ofName name
  | .object [(name, contents)] => do
    let found ← ofName name
    if isNothing setting contents then pure found else throw (.kind contents.outline .null)
  | .object _ => .error (.value .object .singleEntry)
  | value => .error (.kind value.outline .caseName)

end FormRules.Decode
