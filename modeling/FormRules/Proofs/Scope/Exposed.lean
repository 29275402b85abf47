import FormRules.Proofs.Keyed.OrderedMap
import FormRules.Scope.FieldPaths

/-!
# Paths that fields expose

A field is reached through the fieldsets that enclose it, and exposes a path for its value and one
for each property of that.
-/

namespace FormRules

/-- A field stands below fieldsets with the given ids, the outermost first, and nothing else. -/
inductive Field.Reached : List (String × Field) → List String → String → Field → Prop
  | top {entries : List (String × Field)} {id : String} {field : Field} :
    (id, field) ∈ entries → Reached entries [] id field
  | inner {entries : List (String × Field)} {first id : String} {fieldset field : Field}
    {outer : List String} :
    (first, fieldset) ∈ entries → fieldset.type = .fieldset →
      Reached fieldset.fields outer id field → Reached entries (first :: outer) id field

namespace Field

variable {entries : List (String × Field)} {room : Nat} {path : String} {field : Field}
  {exposure : String × ValueType}

/-- The path of the value of a field that is reached through fieldsets. -/
def valuePath (path : String) (outer : List String) (id : String) : String :=
  within (within (outer.foldl within path) id) "value"

theorem not_reached_empty {outer : List String} {id : String} :
    ¬Reached Fields.empty.entries outer id field := by
  rintro (member | ⟨member, -, -⟩)
  · cases member
  · cases member

theorem exists_mem_valuePaths_iff {type : FieldType} {name : String} :
    (∃ exposure ∈ valuePaths type path, exposure.1 = name) ↔
      name = path ∨ ∃ property ∈ type.properties, name = within path property.1 := by
  constructor
  · rintro ⟨exposure, member, rfl⟩
    rcases List.mem_cons.1 member with rfl | member
    · exact .inl rfl
    · obtain ⟨property, listed, rfl⟩ := List.mem_map.1 member
      exact .inr ⟨property, listed, rfl⟩
  · rintro (rfl | ⟨property, listed, rfl⟩)
    · exact ⟨_, List.mem_cons_self, rfl⟩
    · exact ⟨_, List.mem_cons_of_mem _ (List.mem_map_of_mem listed), rfl⟩

theorem exposed_of_ne (h : field.type ≠ .fieldset) :
    field.exposed room path = valuePaths field.type (within path "value") := by
  obtain ⟨type, label, description, required, visible, fields⟩ := field
  unfold exposed
  split
  · next same =>
    cases same
    exact absurd rfl h
  · next same =>
    cases same
    rfl

theorem exposed_zero (h : field.type = .fieldset) : field.exposed 0 path = [] := by
  obtain ⟨type, label, description, required, visible, fields⟩ := field
  cases h
  rfl

theorem exposed_succ (h : field.type = .fieldset) :
    field.exposed (room + 1) path = exposedAll room path field.fields := by
  obtain ⟨type, label, description, required, visible, fields⟩ := field
  cases h
  rfl

theorem exposedAll_eq_flatMap : exposedAll room path entries =
    entries.flatMap fun entry ↦ entry.2.exposed room (within path entry.1) := by
  induction entries with
  | nil => rfl
  | cons entry rest ih =>
    obtain ⟨id, field⟩ := entry
    rw [exposedAll, ih, List.flatMap_cons]

end Field

end FormRules
