import FormRules.Proofs.Scope.Chain

/-!
# Ids of fields

The ids of a form are those of its fields, each after the ids of the fieldsets in which it stands.
They come from the same fields as the paths of values, if the paths go down to the same depth. A
path has the whole chain of its field. An id leaves out the empty ids at the front of the chain,
since an empty group is taken for the outermost one, so it is the whole chain if the outermost
fieldset has a name.
-/

namespace FormRules

namespace Field

variable {entries : List (String × Field)} {room : Nat} {group full : String} {field : Field}

/-! ## The walk over ids -/

theorem dottedIds_of_ne (h : field.type ≠ .fieldset) : field.dottedIds room full = [full] := by
  obtain ⟨type, label, description, required, visible, fields⟩ := field
  unfold dottedIds
  split
  · next same =>
    cases same
    exact absurd rfl h
  · rfl

theorem dottedIds_zero : field.dottedIds 0 full = [full] := by
  obtain ⟨type, label, description, required, visible, fields⟩ := field
  unfold dottedIds
  split <;> rfl

theorem dottedIds_succ (h : field.type = .fieldset) :
    field.dottedIds (room + 1) full = full :: dottedIdsAll room full field.fields := by
  obtain ⟨type, label, description, required, visible, fields⟩ := field
  cases h
  rfl

theorem dottedIdsAll_eq_flatMap : dottedIdsAll room group entries =
    entries.flatMap fun entry ↦ entry.2.dottedIds room (dottedId group entry.1) := by
  induction entries with
  | nil => rfl
  | cons entry rest ih =>
    obtain ⟨id, field⟩ := entry
    rw [dottedIdsAll, ih, List.flatMap_cons]

/-- The walk that collects ids. -/
def idWalk : Walk String String where
  all := dottedIdsAll
  one room group id field := field.dottedIds room (dottedId group id)
  own _ group o := [o.chain.foldl dottedId group]
  inside := dottedId
  all_eq_flatMap room group entries := dottedIdsAll_eq_flatMap
  one_of_ne room group id field valued := dottedIds_of_ne valued
  one_zero group id field := dottedIds_zero
  one_succ room group id field fieldset := dottedIds_succ fieldset
  own_enclose room group outer o := by simp

/-- The ids of the fields that a walk comes to, in its order. -/
theorem dottedIdsAll_eq_map_entered (room : Nat) (group : String)
    (entries : List (String × Field)) :
    dottedIdsAll room group entries =
      (entered room entries).map fun o ↦ o.chain.foldl dottedId group := by
  rw [List.map_eq_flatMap]
  exact idWalk.all_eq_flatMap_entered room group entries

/-! ## Ids that are spelt -/

theorem within_ne_empty (group id : String) : within group id ≠ "" := by
  intro empty
  have lengths := congrArg (fun text ↦ text.toList.length) empty
  simp [toList_within] at lengths

theorem foldl_dottedId_of_ne (h : group ≠ "") (ids : List String) :
    ids.foldl dottedId group = ids.foldl within group := by
  induction ids generalizing group with
  | nil => rfl
  | cons id rest ih =>
    rw [List.foldl_cons, List.foldl_cons, dottedId, if_neg h, ih (within_ne_empty group id)]

/-- Empty ids at the front of a chain are left out. -/
theorem foldl_dottedId (ids : List String) :
    ids.foldl dottedId "" = ".".intercalate (ids.dropWhile (· = "")) := by
  induction ids with
  | nil => simp
  | cons id rest ih =>
    rw [List.foldl_cons, dottedId, if_pos rfl]
    by_cases empty : id = ""
    · rw [empty, ih]
      simp
    · rw [foldl_dottedId_of_ne empty, foldl_within, List.dropWhile_cons_of_neg]
      simpa using empty

/-- A chain that does not begin with an empty group is spelt in full. -/
theorem foldl_dottedId_of_named {outer : List String} (named : outer.head? ≠ some "")
    (id : String) : (outer ++ [id]).foldl dottedId "" = ".".intercalate (outer ++ [id]) := by
  rw [foldl_dottedId]
  cases outer with
  | nil => by_cases empty : id = "" <;> simp [empty]
  | cons first rest =>
    rw [List.cons_append, List.dropWhile_cons_of_neg]
    simpa using named

end Field

variable {fields : Fields} {outer : List String} {id name : String} {field : Field}

/-- The ids are those of the fields that stand in no more fieldsets than may be entered. -/
theorem Fields.mem_allIds_iff : name ∈ fields.allIds ↔ ∃ outer id field,
    Field.Reached fields.entries outer id field ∧ outer.length ≤ defaultMaxDepth ∧
      (outer ++ [id]).foldl Field.dottedId "" = name := by
  rw [allIds, List.mem_eraseDups, Field.dottedIdsAll_eq_map_entered, List.mem_map]
  constructor
  · rintro ⟨o, comes, spelt⟩
    obtain ⟨reached, near⟩ := Field.mem_entered_iff.mp comes
    exact ⟨o.outer, o.id, o.field, reached, near, spelt⟩
  · rintro ⟨outer, id, field, reached, near, spelt⟩
    exact ⟨⟨outer, id, field⟩, Field.mem_entered_iff.mpr ⟨reached, near⟩, spelt⟩

theorem Fields.mem_paths_of_reached (path : String)
    (reached : Field.Reached fields.entries outer id field)
    (near : outer.length ≤ defaultMaxDepth) (valued : field.type ≠ .fieldset) :
    path ++ "." ++ ".".intercalate (outer ++ [id]) ++ ".value" ∈ fields.paths path := by
  rw [← Field.valuePath_eq]
  exact mem_keys_types_iff.mpr ⟨outer, id, field, reached, near, valued, .inl rfl⟩

/-- The ids and the paths of values come from the same fields. A path has the chain of its field in
full, and so has an id unless the outermost fieldset has the empty id. In any case an id is a chain
without the empty ids at its front. -/
theorem Fields.ids_beside_paths (fields : Fields) (path : String) :
    (∀ outer id field, Field.Reached fields.entries outer id field →
      outer.length ≤ defaultMaxDepth →
        ".".intercalate ((outer ++ [id]).dropWhile (· = "")) ∈ fields.allIds ∧
        (outer.head? ≠ some "" → ".".intercalate (outer ++ [id]) ∈ fields.allIds) ∧
        (field.type ≠ .fieldset →
          path ++ "." ++ ".".intercalate (outer ++ [id]) ++ ".value" ∈ fields.paths path)) ∧
    ∀ name ∈ fields.allIds, ∃ outer id field,
      Field.Reached fields.entries outer id field ∧ outer.length ≤ defaultMaxDepth ∧
        name = ".".intercalate ((outer ++ [id]).dropWhile (· = "")) ∧
        (outer.head? ≠ some "" → name = ".".intercalate (outer ++ [id])) := by
  constructor
  · intro outer id field reached near
    have collected : (outer ++ [id]).foldl Field.dottedId "" ∈ fields.allIds :=
      mem_allIds_iff.mpr ⟨outer, id, field, reached, near, rfl⟩
    refine ⟨?_, fun named ↦ ?_, mem_paths_of_reached path reached near⟩
    · rwa [← Field.foldl_dottedId]
    · rwa [← Field.foldl_dottedId_of_named named]
  · intro name collected
    obtain ⟨outer, id, field, reached, near, rfl⟩ := mem_allIds_iff.mp collected
    exact ⟨outer, id, field, reached, near, Field.foldl_dottedId _,
      fun named ↦ Field.foldl_dottedId_of_named named id⟩

/-- A named fieldset with an empty id within it, where id and path have the whole chain. -/
theorem Fields.ids_beside_paths_of_empty_inner :
    let leaf : Field := ⟨.text, none, none, none, none, []⟩
    let group (fields : List (String × Field)) : Field :=
      ⟨.fieldset, none, none, none, none, fields⟩
    let fields : Fields := .ofEntries [("a", group [("", group [("b", leaf)])])]
    Field.Reached fields.entries ["a", ""] "b" leaf ∧ "a..b" ∈ fields.allIds ∧
      "form.a..b.value" ∈ fields.paths "form" := by
  intro leaf group fields
  have reached : Field.Reached fields.entries ["a", ""] "b" leaf :=
    .inner List.mem_cons_self rfl
      (.inner List.mem_cons_self rfl (.top List.mem_cons_self))
  obtain ⟨-, named, valued⟩ :=
    (fields.ids_beside_paths "form").1 ["a", ""] "b" leaf reached (by decide)
  exact ⟨reached, named (by decide), valued (by decide)⟩

/-- A field in a fieldset with the empty id, and one of the same id beside that. The path of the
first has its chain, but no id has it, and its id is that of the second. -/
theorem Fields.ids_lose_empty_group :
    let leaf : Field := ⟨.text, none, none, none, none, []⟩
    let fields : Fields := .ofEntries
      [("", ⟨.fieldset, none, none, none, none, [("a", leaf)]⟩), ("a", leaf)]
    Field.Reached fields.entries [""] "a" leaf ∧ ".".intercalate ["", "a"] ∉ fields.allIds ∧
      "fields" ++ "." ++ ".".intercalate ["", "a"] ++ ".value" ∈ fields.paths "fields" ∧
      fields.allIds = ["", "a"] := by
  intro leaf fields
  exact ⟨.inner List.mem_cons_self rfl (.top List.mem_cons_self), by decide +kernel,
    by decide +kernel, by decide +kernel⟩

end FormRules
