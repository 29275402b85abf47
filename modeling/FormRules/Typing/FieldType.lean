import FormRules.Typing.ValueType

/-!
# Field types

The types that a form declares for its fields and rules. Each has the type of its value and, if it
is composite, named properties with types of their own.
-/

namespace FormRules

inductive FieldType where
  | text
  | email
  | uuid
  | uri
  | enum
  | boolean
  | number
  | percentage
  | rating
  | date
  | datetime
  | time
  | duration
  | money
  | address
  | phone
  | coordinate
  | bbox
  | person
  | organization
  | identification
  | multiselect
  /-- A group of fields, which has no value of its own. -/
  | fieldset
  /-- A type that is not one of the above. -/
  | other
deriving DecidableEq, Repr, Inhabited

namespace FieldType

def name : FieldType → String
  | .text => "text"
  | .email => "email"
  | .uuid => "uuid"
  | .uri => "uri"
  | .enum => "enum"
  | .boolean => "boolean"
  | .number => "number"
  | .percentage => "percentage"
  | .rating => "rating"
  | .date => "date"
  | .datetime => "datetime"
  | .time => "time"
  | .duration => "duration"
  | .money => "money"
  | .address => "address"
  | .phone => "phone"
  | .coordinate => "coordinate"
  | .bbox => "bbox"
  | .person => "person"
  | .organization => "organization"
  | .identification => "identification"
  | .multiselect => "multiselect"
  | .fieldset => "fieldset"
  | .other => "other"

def all : List FieldType :=
  [.text, .email, .uuid, .uri, .enum, .boolean, .number, .percentage, .rating, .date, .datetime,
    .time, .duration, .money, .address, .phone, .coordinate, .bbox, .person, .organization,
    .identification, .multiselect, .fieldset, .other]

/-- The type of a name. Every name that is not known names the type `other`. -/
def ofName (name : String) : FieldType := (all.find? fun type ↦ type.name = name).getD .other

def valueType : FieldType → ValueType
  | .text | .email | .uuid | .uri | .enum => .string
  | .boolean => .boolean
  | .number | .percentage => .number
  | .rating => .integer
  | .date => .date
  | .datetime => .datetime
  | .time => .time
  | .duration => .duration
  | .money => .money
  | .address => .address
  | .phone => .phone
  | .coordinate => .coordinate
  | .bbox => .bbox
  | .person => .person
  | .organization => .organization
  | .identification => .identification
  | .multiselect => .list
  | .fieldset | .other => .unknown

/-- The properties of a composite type, in order. -/
def properties : FieldType → List (String × ValueType)
  | .duration =>
    [("years", .number), ("months", .number), ("weeks", .number), ("days", .number),
      ("hours", .number), ("minutes", .number), ("seconds", .number)]
  | .money => [("amount", .number), ("currency", .string)]
  | .address =>
    [("line1", .string), ("line2", .string), ("locality", .string), ("region", .string),
      ("postalCode", .string), ("country", .string)]
  | .phone => [("number", .string), ("type", .string), ("extension", .string)]
  | .coordinate => [("lat", .number), ("lon", .number)]
  | .bbox => [("north", .number), ("south", .number), ("east", .number), ("west", .number)]
  | .person =>
    [("fullName", .string), ("firstName", .string), ("middleName", .string),
      ("lastName", .string), ("suffix", .string), ("title", .string)]
  | .organization =>
    [("name", .string), ("legalName", .string), ("entityType", .string), ("domicile", .string)]
  | .identification =>
    [("idType", .string), ("idNumber", .string), ("issuingAuthority", .string),
      ("issuedDate", .date), ("expiryDate", .date)]
  | _ => []

def property? (type : FieldType) (property : String) : Option ValueType :=
  type.properties.lookup property

def isComposite (type : FieldType) : Bool := !type.properties.isEmpty

theorem ofName_name (type : FieldType) : ofName type.name = type := by
  cases type <;> decide +kernel

theorem nodup_properties (type : FieldType) : (type.properties.map Prod.fst).Nodup := by
  cases type <;> decide +kernel

theorem properties_ne_unknown (type : FieldType) : ∀ p ∈ type.properties, p.2 ≠ .unknown := by
  cases type <;> decide +kernel

end FieldType

end FormRules
