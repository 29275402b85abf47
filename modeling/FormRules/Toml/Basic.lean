import FormRules.Keyed.Entries

/-!
# Configuration values

The values of a TOML text. A table remembers how it came to be, because that decides what may still
be added to it: a table with a header of its own is complete, one that a longer header or a dotted
key has brought about may grow, and an inline table is closed.
-/

namespace FormRules.Toml

/-- How a table came to be. -/
inductive Origin where
  | header
  /-- It stands on the way to the table of a header. -/
  | implied
  /-- It stands on the way to a dotted key. -/
  | dotted
  /-- It is written as one value. -/
  | inline
deriving DecidableEq, Repr

inductive Value where
  | text (content : String)
  | integer (value : Int)
  /-- A number with a fraction or an exponent, as it is written. -/
  | float (digits : String)
  | boolean (value : Bool)
  /-- A date, a time or both, as it is written. -/
  | datetime (digits : String)
  | array (items : List Value)
  | table (origin : Origin) (entries : List (String × Value))
  /-- The tables of a header in double brackets. -/
  | tables (items : List (List (String × Value)))
deriving Repr, Inhabited

abbrev Entries := List (String × Value)

/-- Changes the table at the end of a path. Tables that are missing on the way are made: for a
dotted key, or for a header. Of several tables with one header the last is meant. No path leads
through other values, and a dotted key does not lead into a table that has a header. -/
def alter (dotted : Bool) (change : Origin → Entries → Option Entries) (origin : Origin)
    (entries : Entries) : List String → Option Entries
  | [] => change origin entries
  | key :: path =>
    match Keyed.get? entries key with
    | none =>
      let origin := if dotted then .dotted else .implied
      (alter dotted change origin [] path).map fun inner ↦
        Keyed.put key (.table origin inner) entries
    | some (.table origin inner) =>
      if origin = .inline || (dotted && origin = .header) then none
      else
        (alter dotted change origin inner path).map fun inner ↦
          Keyed.put key (.table origin inner) entries
    | some (.tables items) =>
      match items.getLast? with
      | none => none
      | some last =>
        (alter dotted change .header last path).map fun last ↦
          Keyed.put key (.tables (items.dropLast ++ [last])) entries
    | some _ => none

/-- Adds a value under a dotted key. The last table on the way must be one that dotted keys have
brought about, and must not have the key. -/
def insert (key : List String) (value : Value) (origin : Origin) (entries : Entries) :
    Option Entries :=
  match key.getLast? with
  | none => none
  | some name =>
    alter true
      (fun last entries ↦
        if (last == .dotted) = key.dropLast.isEmpty then none
        else if name ∈ Keyed.keys entries then none
        else some (entries ++ [(name, value)]))
      origin entries key.dropLast

def openTable (path : List String) (entries : Entries) : Option Entries :=
  match path.getLast? with
  | none => none
  | some name =>
    alter false
      (fun _ entries ↦
        match Keyed.get? entries name with
        | none => some (entries ++ [(name, .table .header [])])
        | some (.table .implied inner) => some (Keyed.put name (.table .header inner) entries)
        | some _ => none)
      .header entries path.dropLast

/-- Begins another table of a header in double brackets. -/
def openElement (path : List String) (entries : Entries) : Option Entries :=
  match path.getLast? with
  | none => none
  | some name =>
    alter false
      (fun _ entries ↦
        match Keyed.get? entries name with
        | none => some (entries ++ [(name, .tables [[]])])
        | some (.tables items) => some (Keyed.put name (.tables (items ++ [[]])) entries)
        | some _ => none)
      .header entries path.dropLast

def insertAt (path key : List String) (value : Value) (entries : Entries) : Option Entries :=
  alter false (fun origin entries ↦ insert key value origin entries) .header entries path

end FormRules.Toml
