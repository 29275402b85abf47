import FormRules.Proofs.Scope.Chain
import Mathlib.Algebra.GroupWithZero.Nat

/-!
# Field paths do not collide

A path is the chain of a field, followed by the word for its value and for a property of that. If no
id has a dot, the words of a path can be read off from it, and no property is called like the word
for values, so they tell the chain. Hence no path is written twice and none takes the place of
another, whatever fields are called.
-/

namespace FormRules

namespace FieldType

/-- The words that follow the chain of a field in the paths that it exposes. -/
def tails (type : FieldType) : List (List String) :=
  ["value"] :: type.properties.map fun property ↦ ["value", property.1]

theorem nodup_tails (type : FieldType) : type.tails.Nodup := by
  cases type <;> decide +kernel

theorem plain_properties (type : FieldType) :
    ∀ property ∈ type.properties, property.1 ≠ "value" ∧ '.' ∉ property.1.toList := by
  cases type <;> decide +kernel

theorem plain_tails (type : FieldType) : ∀ tail ∈ type.tails, ∀ word ∈ tail, '.' ∉ word.toList := by
  cases type <;> decide +kernel

/-- What stands before the words for a value or for a property can be told from the whole. -/
theorem eq_of_append_tails {type type' : FieldType} {tail tail' chain chain' : List String}
    (h : tail ∈ type.tails) (h' : tail' ∈ type'.tails) (same : chain ++ tail = chain' ++ tail') :
    chain = chain' := by
  have last : ∀ {type : FieldType} {property : String × ValueType} {chain chain' : List String},
      property ∈ type.properties → chain ++ ["value"] ≠ chain' ++ ["value", property.1] := by
    intro type property chain chain' listed same
    have ends := congrArg List.getLast? same
    simp only [List.getLast?_append] at ends
    exact (type.plain_properties property listed).1 (Option.some.inj ends).symm
  rcases List.mem_cons.mp h with rfl | h <;> rcases List.mem_cons.mp h' with rfl | h'
  · exact (List.append_inj' same rfl).1
  · obtain ⟨property', listed', rfl⟩ := List.mem_map.mp h'
    exact absurd same (last listed')
  · obtain ⟨property, listed, rfl⟩ := List.mem_map.mp h
    exact absurd same.symm (last listed)
  · obtain ⟨property, -, rfl⟩ := List.mem_map.mp h
    obtain ⟨property', -, rfl⟩ := List.mem_map.mp h'
    exact (List.append_inj' same rfl).1

end FieldType

namespace Occurrence

/-- The words of the paths that a field exposes. -/
def words (o : Occurrence) : List (List String) :=
  if o.field.type = .fieldset then [] else o.field.type.tails.map (o.chain ++ ·)

theorem keys_exposed (path : String) (o : Occurrence) :
    Keyed.keys (o.exposed path) = o.words.map (List.foldl Field.within path) := by
  unfold exposed words
  split
  · rfl
  · simp [Keyed.keys, Field.valuePaths, FieldType.tails, Field.valuePath, chain]

theorem exists_of_mem_words {o : Occurrence} {names : List String} (h : names ∈ o.words) :
    ∃ tail ∈ o.field.type.tails, o.chain ++ tail = names := by
  obtain ⟨-, h⟩ := List.mem_ite_nil_left.mp h
  exact List.mem_map.mp h

theorem nodup_words (o : Occurrence) : o.words.Nodup := by
  unfold words
  split
  · exact List.nodup_nil
  · exact o.field.type.nodup_tails.map (List.append_right_injective o.chain)

theorem words_disjoint {o o' : Occurrence} (h : o.chain ≠ o'.chain) :
    List.Disjoint o.words o'.words := by
  intro names here there
  obtain ⟨tail, listed, rfl⟩ := exists_of_mem_words here
  obtain ⟨tail', listed', same⟩ := exists_of_mem_words there
  exact h (FieldType.eq_of_append_tails listed' listed same).symm

end Occurrence

namespace Field

variable {entries : List (String × Field)} {room : Nat} {o : Occurrence}

theorem nodup_words (distinct : DistinctEntries entries) (room : Nat) :
    ((entered room entries).flatMap Occurrence.words).Nodup := by
  rw [List.nodup_flatMap]
  exact ⟨fun o _ ↦ o.nodup_words,
    (pairwise_chain_ne distinct room).imp fun differ ↦ Occurrence.words_disjoint differ⟩

/-- All ids of a chain are ids of fields of the tree. -/
theorem plain_chain (plain : ∀ o ∈ occurrencesAll entries, '.' ∉ o.id.toList)
    (member : o ∈ occurrencesAll entries) : ∀ id ∈ o.chain, '.' ∉ id.toList := by
  intro id listed
  rcases List.mem_append.mp listed with enclosing | own
  · obtain ⟨before, after, split⟩ := List.append_of_mem enclosing
    have reached := mem_occurrencesAll_iff.mp member
    rw [split] at reached
    obtain ⟨fieldset, reached, -⟩ := reached.above
    exact plain _ reached.mem_occurrencesAll
  · cases List.mem_singleton.mp own
    exact plain o member

theorem nodup_keys_exposedAll (distinct : DistinctEntries entries)
    (plain : ∀ o ∈ occurrencesAll entries, '.' ∉ o.id.toList) (room : Nat) (path : String) :
    (Keyed.keys (exposedAll room path entries)).Nodup := by
  have spelt : Keyed.keys (exposedAll room path entries) =
      ((entered room entries).flatMap Occurrence.words).map (List.foldl within path) := by
    rw [exposedAll_eq_flatMap_entered, Keyed.keys, List.map_flatMap, List.map_flatMap]
    exact List.flatMap_congr fun o _ ↦ o.keys_exposed path
  have plain_words : ∀ names ∈ (entered room entries).flatMap Occurrence.words,
      names ≠ [] ∧ ∀ name ∈ names, '.' ∉ name.toList := by
    intro names listed
    obtain ⟨o, comes, listed⟩ := List.mem_flatMap.mp listed
    obtain ⟨tail, ends, rfl⟩ := Occurrence.exists_of_mem_words listed
    have chain := plain_chain plain (List.mem_filter.mp comes).1
    have tail := o.field.type.plain_tails tail ends
    exact ⟨by simp [o.chain_ne_nil], List.forall_mem_append.mpr ⟨chain, tail⟩⟩
  rw [spelt]
  apply (nodup_words distinct room).map_on
  intro names listed names' listed' same
  obtain ⟨ne, plain⟩ := plain_words names listed
  obtain ⟨ne', plain'⟩ := plain_words names' listed'
  exact foldl_within_injective ne ne' plain plain' same

theorem flatMap_exposed (path : String) (occurrences : List Occurrence) :
    occurrences.flatMap (Occurrence.exposed path) =
      (occurrences.filter (·.field.type ≠ .fieldset)).flatMap fun o ↦
        valuePaths o.field.type (valuePath path o.outer o.id) := by
  induction occurrences with
  | nil => rfl
  | cons o rest ih =>
    by_cases fieldset : o.field.type = .fieldset <;> simp [Occurrence.exposed, fieldset, ih]

end Field

/-- Where no id has a dot, fields expose one path for each value that is reached, and right after it
one for each property of that, in declaration order. All of these are different, so no path that is
written takes the place of another one. -/
theorem Fields.types_exact (fields : Fields) (path : String) (maxDepth : Nat)
    (plain : ∀ o ∈ Field.occurrencesAll fields.entries, '.' ∉ o.id.toList) :
    let valued := (Field.occurrencesAll fields.entries).filter fun o ↦
      o.field.type ≠ .fieldset ∧ o.depth ≤ maxDepth
    let name (o : Occurrence) := path ++ "." ++ ".".intercalate (o.outer ++ [o.id]) ++ ".value"
    (∀ o, o ∈ valued ↔ Field.Reached fields.entries o.outer o.id o.field ∧
      o.field.type ≠ .fieldset ∧ o.outer.length ≤ maxDepth) ∧
    (Keyed.keys (Field.exposedAll maxDepth path fields.entries)).Nodup ∧
    (fields.types path maxDepth).entries = valued.flatMap (fun o ↦
      (name o, o.field.type.valueType) :: o.field.type.properties.map fun property ↦
        (name o ++ "." ++ property.1, property.2)) ∧
    (fields.types path maxDepth).size =
      (valued.map fun o ↦ 1 + o.field.type.properties.length).sum := by
  intro valued name
  have distinct_paths := Field.nodup_keys_exposedAll fields.distinct plain maxDepth path
  have written : (fields.types path maxDepth).entries = valued.flatMap fun o ↦
      (name o, o.field.type.valueType) :: o.field.type.properties.map fun property ↦
        (name o ++ "." ++ property.1, property.2) := by
    calc
      (fields.types path maxDepth).entries = Field.exposedAll maxDepth path fields.entries :=
        Keyed.ofList_eq_self distinct_paths
      _ = valued.flatMap fun o ↦
          Field.valuePaths o.field.type (Field.valuePath path o.outer o.id) := by
        rw [Field.exposedAll_eq_flatMap_entered, Field.flatMap_exposed, Field.entered,
          List.filter_filter]
        simp [valued]
      _ = _ := by
        simp only [Field.valuePath_eq]
        rfl
  refine ⟨?_, distinct_paths, written, ?_⟩
  · intro o
    rw [List.mem_filter, Field.mem_occurrencesAll_iff, decide_eq_true_eq]
    rfl
  · rw [OrderedMap.size, written, List.length_flatMap]
    simp [Nat.add_comm]

/-- Fields that are called like the words of paths, or not at all, beside and within one another. -/
theorem Fields.types_exact_of_telling_ids :
    let leaf (type : FieldType) : Field := ⟨type, none, none, none, none, []⟩
    let group (fields : List (String × Field)) : Field :=
      ⟨.fieldset, none, none, none, none, fields⟩
    let fields : Fields := .ofEntries
      [("value", leaf .money), ("", group [("value", leaf .rating),
        ("amount", group [("value", leaf .coordinate), ("", leaf .text)])]), ("amount", leaf .date)]
    (∀ o ∈ Field.occurrencesAll fields.entries, '.' ∉ o.id.toList) ∧
    (fields.types "a.value" 2).entries =
      [("a.value.value.value", .money), ("a.value.value.value.amount", .number),
        ("a.value.value.value.currency", .string), ("a.value..value.value", .integer),
        ("a.value..amount.value.value", .coordinate),
        ("a.value..amount.value.value.lat", .number), ("a.value..amount.value.value.lon", .number),
        ("a.value..amount..value", .string), ("a.value.amount.value", .date)] ∧
    (fields.types "a.value" 2).size = (1 + 2) + 1 + (1 + 2) + 1 + 1 := by
  intro leaf group fields
  have plain : ∀ o ∈ Field.occurrencesAll fields.entries, '.' ∉ o.id.toList := by decide +kernel
  obtain ⟨-, -, written, counted⟩ := fields.types_exact "a.value" 2 plain
  exact ⟨plain, written.trans (by decide +kernel), counted.trans (by decide +kernel)⟩

end FormRules
