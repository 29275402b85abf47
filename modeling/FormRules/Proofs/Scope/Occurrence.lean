import FormRules.Proofs.Scope.Exposed

/-!
# The fields of a tree

All fields of a tree in declaration order, each with the fieldsets in which it stands. A walk that
may enter only so many fieldsets, one in another, comes to the fields below no more fieldsets than
that, in the same order. The paths that fields expose are those of the fields that such a walk comes
to.
-/

namespace FormRules

/-- A field of a tree, and the ids of the fieldsets in which it stands, the outermost first. -/
structure Occurrence where
  outer : List String
  id : String
  field : Field

namespace Occurrence

/-- How many fieldsets enclose the field. -/
def depth (o : Occurrence) : Nat := o.outer.length

/-- The same field of a tree that stands in a fieldset itself. -/
def enclose (group : String) (o : Occurrence) : Occurrence := { o with outer := group :: o.outer }

/-- One field stands above another if it is one of the fieldsets that enclose it. -/
def Above (o o' : Occurrence) : Prop := ∃ inner, o'.outer = o.outer ++ o.id :: inner

/-- What a field exposes if a walk comes to it. A fieldset has no value of its own. -/
def exposed (path : String) (o : Occurrence) : List (String × ValueType) :=
  if o.field.type = .fieldset then []
  else Field.valuePaths o.field.type (Field.valuePath path o.outer o.id)

variable {o o' : Occurrence}

@[simp] theorem depth_enclose (group : String) (o : Occurrence) :
    (o.enclose group).depth = o.depth + 1 := rfl

theorem exposed_enclose (path group : String) (o : Occurrence) :
    (o.enclose group).exposed path = o.exposed (Field.within path group) := rfl

theorem mem_exposed_iff {path : String} {exposure : String × ValueType} :
    exposure ∈ o.exposed path ↔ o.field.type ≠ .fieldset ∧
      exposure ∈ Field.valuePaths o.field.type (Field.valuePath path o.outer o.id) :=
  List.mem_ite_nil_left

theorem Above.depth_lt (h : o.Above o') : o.depth < o'.depth := by
  obtain ⟨inner, outer_eq⟩ := h
  rw [depth, depth, outer_eq, List.length_append, List.length_cons]
  omega

end Occurrence

namespace Field

mutual

/-- A field and, if it is a fieldset, all fields within it. -/
def occurrences (id : String) : Field → List Occurrence
  | ⟨type, label, description, required, visible, fields⟩ =>
    ⟨[], id, ⟨type, label, description, required, visible, fields⟩⟩ ::
      match type with
      | .fieldset => (occurrencesAll fields).map (Occurrence.enclose id)
      | _ => []

def occurrencesAll : List (String × Field) → List Occurrence
  | [] => []
  | (id, field) :: rest => field.occurrences id ++ occurrencesAll rest

end

variable {entries : List (String × Field)} {room : Nat} {id : String} {field field' : Field}
  {outer : List String} {o : Occurrence}

theorem occurrences_eq (id : String) (field : Field) : field.occurrences id =
    ⟨[], id, field⟩ :: if field.type = .fieldset then
      (occurrencesAll field.fields).map (Occurrence.enclose id) else [] := by
  obtain ⟨type, label, description, required, visible, fields⟩ := field
  unfold occurrences
  by_cases fieldset : type = .fieldset
  · cases fieldset
    rfl
  · simp [fieldset]

theorem occurrencesAll_eq_flatMap (entries : List (String × Field)) :
    occurrencesAll entries = entries.flatMap fun entry ↦ entry.2.occurrences entry.1 := by
  induction entries with
  | nil => rfl
  | cons entry rest ih =>
    obtain ⟨id, field⟩ := entry
    rw [occurrencesAll, ih, List.flatMap_cons]

/-! ## Fields that are reached -/

theorem Reached.mem_occurrencesAll (h : Reached entries outer id field) :
    ⟨outer, id, field⟩ ∈ occurrencesAll entries := by
  induction h with
  | @top entries id field member =>
    rw [occurrencesAll_eq_flatMap, List.mem_flatMap]
    refine ⟨(id, field), member, ?_⟩
    rw [occurrences_eq]
    exact List.mem_cons_self
  | @inner entries first id fieldset field outer member enters _ ih =>
    rw [occurrencesAll_eq_flatMap, List.mem_flatMap]
    refine ⟨(first, fieldset), member, ?_⟩
    rw [occurrences_eq, if_pos enters]
    exact List.mem_cons_of_mem _ (List.mem_map_of_mem (f := Occurrence.enclose first) ih)

mutual

theorem reached_of_mem_occurrences : ∀ (field : Field) {id : String}
    {all : List (String × Field)}, (id, field) ∈ all →
      ∀ o ∈ field.occurrences id, Reached all o.outer o.id o.field
  | ⟨type, label, description, required, visible, fields⟩, id, all, member, o, found => by
    rw [occurrences_eq] at found
    rcases List.mem_cons.mp found with rfl | found
    · exact .top member
    · obtain ⟨fieldset, found⟩ := List.mem_ite_nil_right.mp found
      obtain ⟨below, listed, rfl⟩ := List.mem_map.mp found
      exact .inner member fieldset
        (reached_of_mem_occurrencesAll fields (fun _ member ↦ member) below listed)

theorem reached_of_mem_occurrencesAll : ∀ (entries : List (String × Field))
    {all : List (String × Field)}, (∀ entry ∈ entries, entry ∈ all) →
      ∀ o ∈ occurrencesAll entries, Reached all o.outer o.id o.field
  | [], _, _, _, found => by cases found
  | (id, field) :: rest, all, among, o, found => by
    rw [List.forall_mem_cons] at among
    rcases List.mem_append.mp found with found | found
    · exact reached_of_mem_occurrences field among.1 o found
    · exact reached_of_mem_occurrencesAll rest among.2 o found

end

theorem mem_occurrencesAll_iff :
    o ∈ occurrencesAll entries ↔ Reached entries o.outer o.id o.field :=
  ⟨reached_of_mem_occurrencesAll entries (fun _ member ↦ member) o, Reached.mem_occurrencesAll⟩

theorem Distinct.fields (h : field.Distinct) : DistinctEntries field.fields := by
  cases field
  exact h

/-- A field that is reached stands below fieldsets that are reached. -/
theorem Reached.above {inner : List String} {group : String}
    (h : Reached entries (outer ++ group :: inner) id field) :
    ∃ fieldset, Reached entries outer group fieldset ∧ fieldset.type = .fieldset := by
  induction outer generalizing entries with
  | nil =>
    cases h with
    | inner member enters _ => exact ⟨_, .top member, enters⟩
  | cons first outer ih =>
    cases h with
    | inner member enters reached =>
      obtain ⟨fieldset, found, type_eq⟩ := ih reached
      exact ⟨fieldset, .inner member enters found, type_eq⟩

/-- Above a field that stands deeper than some depth there is a fieldset that stands at it. -/
theorem Reached.exists_above (h : Reached entries outer id field) (deep : room < outer.length) :
    ∃ before group after fieldset, outer = before ++ group :: after ∧ before.length = room ∧
      Reached entries before group fieldset ∧ fieldset.type = .fieldset := by
  have split : outer = outer.take room ++ outer[room] :: outer.drop (room + 1) := by
    rw [← List.drop_eq_getElem_cons, List.take_append_drop]
  rw [split] at h
  obtain ⟨fieldset, reached, enters⟩ := h.above
  exact ⟨_, _, _, fieldset, split, List.length_take_of_le (Nat.le_of_lt deep), reached, enters⟩

/-- There is one field where the ids at every level are distinct. -/
theorem Reached.unique (distinct : DistinctEntries entries) (h : Reached entries outer id field)
    (h' : Reached entries outer id field') : field = field' := by
  have same : ∀ {entries : List (String × Field)} {id field field'}, DistinctEntries entries →
      (id, field) ∈ entries → (id, field') ∈ entries → field = field' := by
    intro entries id field field' distinct member member'
    have nodup := (distinctEntries_iff.mp distinct).1
    have found := Keyed.get?_of_mem nodup member
    rw [Keyed.get?_of_mem nodup member'] at found
    exact (Option.some.inj found).symm
  induction h with
  | top member =>
    cases h' with
    | top member' => exact same distinct member member'
  | inner member _ _ ih =>
    cases h' with
    | inner member' _ reached' =>
      cases same distinct member member'
      exact ih ((distinctEntries_iff.mp distinct).2 _ member).fields reached'

/-! ## Fields that a walk comes to -/

/-- The fields that a walk comes to if it may enter only so many fieldsets, one in another. -/
def entered (room : Nat) (entries : List (String × Field)) : List Occurrence :=
  (occurrencesAll entries).filter fun o ↦ o.depth ≤ room

/-- The fields within a fieldset that a walk comes to, given how many fieldsets it may enter. -/
def enteredWithin (field : Field) : Nat → List Occurrence
  | 0 => []
  | room + 1 => if field.type = .fieldset then entered room field.fields else []

theorem mem_entered_iff :
    o ∈ entered room entries ↔ Reached entries o.outer o.id o.field ∧ o.depth ≤ room := by
  rw [entered, List.mem_filter, mem_occurrencesAll_iff, decide_eq_true_eq]

theorem enteredWithin_eq_nil (h : field.type ≠ .fieldset) : field.enteredWithin room = [] := by
  cases room with
  | zero => rfl
  | succ room => exact if_neg h

theorem enteredWithin_succ (h : field.type = .fieldset) :
    field.enteredWithin (room + 1) = entered room field.fields := if_pos h

/-- Each fieldset on the way to a field takes room for one. -/
theorem filter_map_enclose (group : String) (occurrences : List Occurrence) :
    (occurrences.map (Occurrence.enclose group)).filter (fun o ↦ o.depth ≤ room + 1) =
      (occurrences.filter fun o ↦ o.depth ≤ room).map (Occurrence.enclose group) := by
  rw [List.filter_map]
  congr 2
  funext o
  simp

theorem filter_occurrences (room : Nat) (id : String) (field : Field) :
    (field.occurrences id).filter (fun o ↦ o.depth ≤ room) =
      ⟨[], id, field⟩ :: (field.enteredWithin room).map (Occurrence.enclose id) := by
  have outermost : decide (Occurrence.depth ⟨[], id, field⟩ ≤ room) = true :=
    decide_eq_true (Nat.zero_le room)
  rw [occurrences_eq, List.filter_cons, if_pos outermost]
  congr 1
  by_cases fieldset : field.type = .fieldset
  · rw [if_pos fieldset]
    cases room with
    | zero => simp [enteredWithin]
    | succ room => rw [filter_map_enclose, enteredWithin_succ fieldset, entered]
  · simp [fieldset, enteredWithin_eq_nil]

/-- A walk comes to each field before those within it. -/
theorem entered_eq_flatMap (room : Nat) (entries : List (String × Field)) :
    entered room entries = entries.flatMap fun entry ↦
      ⟨[], entry.1, entry.2⟩ :: (entry.2.enteredWithin room).map (Occurrence.enclose entry.1) := by
  rw [entered, occurrencesAll_eq_flatMap, List.filter_flatMap]
  simp only [filter_occurrences]

/-! ## What a walk collects -/

/-- A walk that collects a list: what it collects at a field before it goes on to those within it
depends on the place at which it stands, and within a fieldset it stands at another place. -/
structure Walk (π β : Type) where
  all : Nat → π → List (String × Field) → List β
  one : Nat → π → String → Field → List β
  own : Nat → π → Occurrence → List β
  inside : π → String → π
  all_eq_flatMap (room : Nat) (place : π) (entries : List (String × Field)) :
    all room place entries = entries.flatMap fun entry ↦ one room place entry.1 entry.2
  one_of_ne (room : Nat) (place : π) (id : String) {field : Field} :
    field.type ≠ .fieldset → one room place id field = own room place ⟨[], id, field⟩
  one_zero (place : π) (id : String) (field : Field) :
    one 0 place id field = own 0 place ⟨[], id, field⟩
  one_succ (room : Nat) (place : π) (id : String) {field : Field} : field.type = .fieldset →
    one (room + 1) place id field =
      own (room + 1) place ⟨[], id, field⟩ ++ all room (inside place id) field.fields
  own_enclose (room : Nat) (place : π) (group : String) (o : Occurrence) :
    own (room + 1) place (o.enclose group) = own room (inside place group) o

/-- A walk collects something at each field that it comes to, in its order. -/
theorem Walk.all_eq_flatMap_entered {π β : Type} (walk : Walk π β) (room : Nat) (place : π)
    (entries : List (String × Field)) :
    walk.all room place entries = (entered room entries).flatMap (walk.own room place) := by
  induction room generalizing place entries with
  | zero =>
    rw [walk.all_eq_flatMap, entered_eq_flatMap, List.flatMap_assoc]
    simp [walk.one_zero, enteredWithin]
  | succ room ih =>
    rw [walk.all_eq_flatMap, entered_eq_flatMap, List.flatMap_assoc]
    congr 1
    funext ⟨id, field⟩
    by_cases fieldset : field.type = .fieldset
    · simp [walk.one_succ room place id fieldset, enteredWithin_succ fieldset, ih,
        List.flatMap_map, walk.own_enclose]
    · simp [walk.one_of_ne _ place id fieldset, enteredWithin_eq_nil fieldset]

/-- The walk that collects the paths of values. -/
def exposedWalk : Walk String (String × ValueType) where
  all := exposedAll
  one room path id field := field.exposed room (within path id)
  own _ path o := o.exposed path
  inside := within
  all_eq_flatMap room path entries := exposedAll_eq_flatMap
  one_of_ne room path id field valued := by
    rw [exposed_of_ne valued, Occurrence.exposed, if_neg valued]
    rfl
  one_zero path id field := by
    by_cases fieldset : field.type = .fieldset
    · rw [exposed_zero fieldset, Occurrence.exposed, if_pos fieldset]
    · rw [exposed_of_ne fieldset, Occurrence.exposed, if_neg fieldset]
      rfl
  one_succ room path id field fieldset := by
    rw [exposed_succ fieldset, Occurrence.exposed, if_pos fieldset, List.nil_append]
  own_enclose room path group o := Occurrence.exposed_enclose path group o

/-- The paths that fields expose are those of the fields that a walk comes to, in its order. -/
theorem exposedAll_eq_flatMap_entered (room : Nat) (path : String)
    (entries : List (String × Field)) :
    exposedAll room path entries = (entered room entries).flatMap (Occurrence.exposed path) :=
  exposedWalk.all_eq_flatMap_entered room path entries

theorem mem_exposedAll_iff {path : String} {exposure : String × ValueType} :
    exposure ∈ exposedAll room path entries ↔ ∃ outer id field,
      Reached entries outer id field ∧ outer.length ≤ room ∧
        field.type ≠ .fieldset ∧ exposure ∈ valuePaths field.type (valuePath path outer id) := by
  rw [exposedAll_eq_flatMap_entered, List.mem_flatMap]
  constructor
  · rintro ⟨o, comes, exposes⟩
    obtain ⟨reached, near⟩ := mem_entered_iff.mp comes
    exact ⟨o.outer, o.id, o.field, reached, near, Occurrence.mem_exposed_iff.mp exposes⟩
  · rintro ⟨outer, id, field, reached, near, exposes⟩
    have comes : ⟨outer, id, field⟩ ∈ entered room entries := mem_entered_iff.mpr ⟨reached, near⟩
    exact ⟨_, comes, Occurrence.mem_exposed_iff.mpr exposes⟩

end Field

/-- A path is exposed exactly if it is that of a value, or of a property of a value, in reach. -/
theorem Fields.mem_keys_types_iff {fields : Fields} {path name : String} {maxDepth : Nat} :
    name ∈ (fields.types path maxDepth).keys ↔ ∃ outer id field,
      Field.Reached fields.entries outer id field ∧ outer.length ≤ maxDepth ∧
        field.type ≠ .fieldset ∧ (name = Field.valuePath path outer id ∨
          ∃ property ∈ field.type.properties,
            name = Field.within (Field.valuePath path outer id) property.1) := by
  rw [types, OrderedMap.keys, OrderedMap.ofList, Keyed.mem_keys_ofList, Keyed.keys, List.mem_map]
  constructor
  · rintro ⟨exposure, exposes, named⟩
    obtain ⟨outer, id, field, reached, entered, valued, member⟩ :=
      Field.mem_exposedAll_iff.1 exposes
    exact ⟨outer, id, field, reached, entered, valued,
      Field.exists_mem_valuePaths_iff.1 ⟨exposure, member, named⟩⟩
  · rintro ⟨outer, id, field, reached, entered, valued, spelt⟩
    obtain ⟨exposure, member, named⟩ := Field.exists_mem_valuePaths_iff.2 spelt
    exact ⟨exposure,
      Field.mem_exposedAll_iff.2 ⟨outer, id, field, reached, entered, valued, member⟩, named⟩

end FormRules
