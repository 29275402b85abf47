/-!
# Value types

What kind of value an expression or a field has. The types of addresses, amounts of money and the
like are distinct from one another; only the two numeric types stand in for each other.
-/

namespace FormRules

inductive ValueType where
  | boolean
  | string
  | number
  | integer
  | date
  | datetime
  | time
  | duration
  | money
  | address
  | phone
  | coordinate
  | bbox
  | person
  | organization
  | identification
  | list
  | unknown
deriving DecidableEq, Repr, Inhabited

namespace ValueType

def name : ValueType → String
  | .boolean => "boolean"
  | .string => "string"
  | .number => "number"
  | .integer => "integer"
  | .date => "date"
  | .datetime => "datetime"
  | .time => "time"
  | .duration => "duration"
  | .money => "money"
  | .address => "address"
  | .phone => "phone"
  | .coordinate => "coordinate"
  | .bbox => "bbox"
  | .person => "person"
  | .organization => "organization"
  | .identification => "identification"
  | .list => "list"
  | .unknown => "unknown"

def all : List ValueType :=
  [.boolean, .string, .number, .integer, .date, .datetime, .time, .duration, .money, .address,
    .phone, .coordinate, .bbox, .person, .organization, .identification, .list, .unknown]

def ofName? (name : String) : Option ValueType := all.find? fun type ↦ type.name = name

def isNumeric : ValueType → Bool
  | .number | .integer => true
  | _ => false

/-- Whether a value of type `actual` may stand where `declared` is declared. -/
def accepts (declared actual : ValueType) : Bool :=
  declared = actual || (declared.isNumeric && actual.isNumeric)

end ValueType

end FormRules
