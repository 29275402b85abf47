import FormRules.Keyed.Entries
import FormRules.Typing.FieldType

/-!
# Fields

The fields of a form make a tree, since a fieldset has fields of its own. At every level the ids are
distinct, which is part of the type `Fields`; any list of entries is brought to that form by letting
the last field of an id take the place of the first.
-/

namespace FormRules

/-- When something is required, visible or included. -/
inductive Condition where
  | literal (value : Bool)
  | expression (text : String)
deriving DecidableEq, Repr

structure Field where
  type : FieldType
  label : Option String
  description : Option String
  required : Option Condition
  visible : Option Condition
  /-- The fields of a fieldset. -/
  fields : List (String × Field)
deriving Repr, Inhabited

namespace Field

mutual

/-- Whether the ids within a field are distinct at every level. -/
def Distinct : Field → Prop
  | ⟨_, _, _, _, _, fields⟩ => DistinctEntries fields

/-- Whether ids are distinct among entries and at every level within them. -/
def DistinctEntries : List (String × Field) → Prop
  | [] => True
  | (id, field) :: rest => id ∉ Keyed.keys rest ∧ field.Distinct ∧ DistinctEntries rest

end

mutual

/-- The same field with distinct ids. -/
def tidy : Field → Field
  | ⟨type, label, description, required, visible, fields⟩ =>
    ⟨type, label, description, required, visible, putAll fields []⟩

/-- Writes entries one after the other, each with distinct ids. -/
def putAll : List (String × Field) → List (String × Field) → List (String × Field)
  | [], written => written
  | (id, field) :: rest, written => putAll rest (Keyed.put id field.tidy written)

end

theorem distinctEntries_iff {entries : List (String × Field)} :
    DistinctEntries entries ↔
      (Keyed.keys entries).Nodup ∧ ∀ entry ∈ entries, entry.2.Distinct := by
  induction entries with
  | nil => simp [DistinctEntries]
  | cons entry rest ih =>
    simp only [DistinctEntries, ih, Keyed.keys_cons, List.nodup_cons, List.forall_mem_cons]
    exact ⟨fun ⟨h, d, n, all⟩ ↦ ⟨⟨h, n⟩, d, all⟩, fun ⟨⟨h, n⟩, d, all⟩ ↦ ⟨h, d, n, all⟩⟩

theorem distinctEntries_put {id : String} {field : Field} {entries : List (String × Field)}
    (h : field.Distinct) (distinct : DistinctEntries entries) :
    DistinctEntries (Keyed.put id field entries) := by
  rw [distinctEntries_iff] at distinct ⊢
  refine ⟨Keyed.nodup_keys_put id field distinct.1, fun entry member ↦ ?_⟩
  rcases Keyed.mem_put member with rfl | member
  · exact h
  · exact distinct.2 entry member

mutual

theorem distinct_tidy : ∀ field : Field, field.tidy.Distinct
  | ⟨_, _, _, _, _, fields⟩ => distinctEntries_putAll fields trivial

theorem distinctEntries_putAll : ∀ (entries : List (String × Field))
    {written : List (String × Field)}, DistinctEntries written →
      DistinctEntries (putAll entries written)
  | [], _, distinct => distinct
  | (_, field) :: rest, _, distinct =>
    distinctEntries_putAll rest (distinctEntries_put (distinct_tidy field) distinct)

end

end Field

/-- The fields of a form in declaration order. -/
structure Fields where
  entries : List (String × Field)
  distinct : Field.DistinctEntries entries

namespace Fields

@[ext] theorem ext {a b : Fields} (h : a.entries = b.entries) : a = b := by
  cases a
  cases b
  cases h
  rfl

def empty : Fields := ⟨[], trivial⟩

instance : Inhabited Fields := ⟨⟨[], trivial⟩⟩

/-- The fields that a list of entries declares, where the last field of an id counts. -/
def ofEntries (entries : List (String × Field)) : Fields :=
  ⟨Field.putAll entries [], Field.distinctEntries_putAll entries trivial⟩

/-- Declares a field: in place if there is one of that id, at the end otherwise. -/
def insert (fields : Fields) (id : String) (field : Field) : Fields :=
  ⟨Keyed.put id field.tidy fields.entries,
    Field.distinctEntries_put (Field.distinct_tidy field) fields.distinct⟩

def ids (fields : Fields) : List String := Keyed.keys fields.entries

end Fields

end FormRules
