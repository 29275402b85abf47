import FormRules.Proofs.Scope.Dependency
import FormRules.Proofs.Scope.Names

/-!
# What an environment contains

The names in a finished environment are the paths of fields and the names that rules add, whatever
the keys of the rules are. The turn of a key touches the names that its rule adds and no others. If
no key has a dot, these are names with the key for their root.
-/

namespace FormRules

/-! ## Rules -/

namespace LogicEntry

variable {key name : String} {entry : LogicEntry}

/-- The names that a rule adds: its key, and one for each property of its declared type. -/
def names (key : String) (entry : LogicEntry) : List String :=
  key :: entry.type.properties.map fun property ↦ Field.within key property.1

theorem within_mem_names {property : String × ValueType} (h : property ∈ entry.type.properties) :
    Field.within key property.1 ∈ entry.names key :=
  List.mem_cons_of_mem _ (List.mem_map_of_mem h)

theorem nameRoot_of_mem_names (plain : '.' ∉ key.toList) (h : name ∈ entry.names key) :
    nameRoot name = key := by
  rcases List.mem_cons.1 h with rfl | h
  · exact nameRoot_of_notMem plain
  · obtain ⟨property, -, rfl⟩ := List.mem_map.1 h
    rw [nameRoot_within, nameRoot_of_notMem plain]

theorem nodup_names (entry : LogicEntry) (plain : '.' ∉ key.toList) : (entry.names key).Nodup := by
  rw [names, List.nodup_cons]
  constructor
  · intro member
    obtain ⟨property, -, same⟩ := List.mem_map.1 member
    have dotted : '.' ∈ (Field.within key property.1).toList := by simp [toList_within]
    rw [same] at dotted
    exact plain dotted
  · have distinct := entry.type.nodup_properties.map (within_injective key)
    rwa [List.map_map] at distinct

theorem mem_expressions_of_expression {text : String} (value : entry.value = .expression text) :
    (none, text) ∈ entry.value.expressions := by
  rw [value]
  exact List.mem_singleton_self _

theorem mem_expressions_of_object {properties : OrderedMap String String} {property text : String}
    (value : entry.value = .object properties) (given : properties.get? property = some text) :
    (some property, text) ∈ entry.value.expressions := by
  rw [value]
  exact List.mem_map_of_mem (OrderedMap.mem_entries_iff.2 given)

end LogicEntry

/-- The rule of a key adds a name. -/
def LogicSection.Adds (logic : LogicSection) (key name : String) : Prop :=
  ∃ entry, logic.get? key = some entry ∧ name ∈ entry.names key

namespace LogicSection

variable {logic : LogicSection} {key name : String}

theorem Adds.mem_keys (h : logic.Adds key name) : key ∈ logic.keys := by
  obtain ⟨entry, found, -⟩ := h
  exact OrderedMap.mem_keys_iff.2 ⟨entry, found⟩

theorem Adds.nameRoot (plain : logic.Plain) (h : logic.Adds key name) : nameRoot name = key := by
  have undotted := (plain key h.mem_keys).1
  obtain ⟨entry, -, added⟩ := h
  exact LogicEntry.nameRoot_of_mem_names undotted added

/-- A rule depends on the rule whose key is the root of a name that it uses. -/
theorem edge_of_used {entry : LogicEntry} (plain : logic.Plain)
    (found : logic.get? key = some entry) (used : name ∈ entry.value.variableNames)
    (declared : nameRoot name ∈ logic.keys) :
    (dependencies logic).Edge key (nameRoot name) :=
  (edge_dependencies_iff found).2 ⟨name, used, referencedKey?_eq_root plain declared⟩

end LogicSection

namespace Environment

variable {env : Environment} {fields : Fields} {logic : LogicSection} {maxDepth : Nat}
  {order : Order String} {key name : String} {keys : List String}
  {entry : LogicEntry} {names : List (String × Inference)}

theorem map_fst_ruleNames (key : String) (entry : LogicEntry) (own : Inference)
    (property : String × ValueType → Inference) :
    (ruleNames key entry own property).map Prod.fst = entry.names key := by
  simp [ruleNames, LogicEntry.names, Function.comp_def]

theorem unknown_of_mem_ruleNames {added : String × Inference}
    (h : added ∈ ruleNames key entry .unknown fun _ ↦ .unknown) : added.2 = .unknown := by
  rcases List.mem_cons.1 h with rfl | h
  · rfl
  · obtain ⟨property, -, rfl⟩ := List.mem_map.1 h
    rfl

/-! ## One turn -/

theorem contains_insert (env : Environment) (name : String) (inference : Inference)
    (other : String) :
    (env.insert name inference).contains other = true ↔
      name = other ∨ env.contains other = true := by
  have looked_up := get?_insert env name inference other
  unfold get? at looked_up
  unfold contains OrderedMap.contains
  rw [looked_up]
  by_cases same : name = other <;> simp [same]

theorem contains_insertAll : (env.insertAll names).contains name = true ↔
    env.contains name = true ∨ name ∈ names.map Prod.fst := by
  induction names generalizing env with
  | nil => simp [insertAll]
  | cons added rest ih =>
    rw [insertAll, List.foldl_cons, ← insertAll, ih, contains_insert, List.map_cons, List.mem_cons]
    constructor
    · rintro ((same | before) | later)
      · exact .inr (.inl same.symm)
      · exact .inl before
      · exact .inr (.inr later)
    · rintro (before | same | later)
      · exact .inl (.inr before)
      · exact .inl (.inl same.symm)
      · exact .inr later

theorem functions_recordKey (logic : LogicSection) (order : Order String) (env : Environment)
    (key : String) : (recordKey logic order env key).functions = env.functions := by
  unfold recordKey
  split
  · rfl
  · split
    · exact functions_insertAll _ _
    · exact functions_insertAll _ _

/-- The turn of a key adds the names of its rule, be it on a cycle or not. -/
theorem contains_recordKey : (recordKey logic order env key).contains name = true ↔
    env.contains name = true ∨ logic.Adds key name := by
  unfold recordKey LogicSection.Adds
  cases logic.get? key with
  | none => simp
  | some entry =>
    dsimp only
    split <;> simp [recordCyclic, record, contains_insertAll, map_fst_ruleNames]

theorem get?_recordKey_of_not_adds (h : ¬logic.Adds key name) :
    (recordKey logic order env key).get? name = env.get? name := by
  unfold recordKey
  split
  · rfl
  · rename_i entry found
    have untouched : ∀ own property, ∀ added ∈ ruleNames key entry own property,
        added.1 ≠ name := by
      rintro own property added member rfl
      have listed := List.mem_map_of_mem (f := Prod.fst) member
      rw [map_fst_ruleNames] at listed
      exact h ⟨entry, found, listed⟩
    split
    · exact get?_insertAll_of_notMem (untouched _ _)
    · exact get?_insertAll_of_notMem (untouched _ _)

/-! ## A run of turns -/

theorem functions_foldl_recordKey (env : Environment) :
    (keys.foldl (recordKey logic order) env).functions = env.functions := by
  induction keys generalizing env with
  | nil => rfl
  | cons key rest ih => exact (ih _).trans (functions_recordKey logic order env key)

theorem contains_foldl_recordKey :
    (keys.foldl (recordKey logic order) env).contains name = true ↔
      env.contains name = true ∨ ∃ key ∈ keys, logic.Adds key name := by
  induction keys generalizing env with
  | nil => simp
  | cons key rest ih =>
    rw [List.foldl_cons, ih, contains_recordKey]
    simp [or_assoc]

theorem get?_foldl_recordKey_of_not_adds (h : ∀ key ∈ keys, ¬logic.Adds key name) :
    (keys.foldl (recordKey logic order) env).get? name = env.get? name := by
  induction keys generalizing env with
  | nil => rfl
  | cons key rest ih =>
    obtain ⟨first, further⟩ := List.forall_mem_cons.1 h
    exact (ih further).trans (get?_recordKey_of_not_adds first)

/-! ## The finished environment -/

theorem functions_build (fields : Fields) (logic : LogicSection) (maxDepth : Nat) :
    (build fields logic maxDepth).functions = Signature.builtins := by
  rw [build, functions_foldl_recordKey, ofFields, functions_insertAll]
  rfl

theorem contains_ofFields : (ofFields fields maxDepth).contains name = true ↔
    name ∈ (fields.types fieldRoot maxDepth).keys := by
  have listed : ((fields.types fieldRoot maxDepth).entries.map fun path ↦
      (path.1, Inference.ofDeclared path.2)).map Prod.fst =
        (fields.types fieldRoot maxDepth).keys := by
    rw [List.map_map]
    rfl
  have nothing : ¬initial.contains name = true := by
    simp [initial, ofFunctions, contains, OrderedMap.contains]
  rw [ofFields, contains_insertAll, listed]
  exact or_iff_right nothing

/-- A finished environment contains the paths of fields and the names that rules add. -/
theorem contains_build : (build fields logic maxDepth).contains name = true ↔
    name ∈ (fields.types fieldRoot maxDepth).keys ∨ ∃ key, logic.Adds key name := by
  rw [build, contains_foldl_recordKey, contains_ofFields]
  have has_turn : ∀ key, logic.Adds key name → key ∈ (LogicSection.order logic).sorted := by
    intro key adds
    exact (LogicSection.sorted_perm_keys logic).mem_iff.2 adds.mem_keys
  constructor
  · rintro (path | ⟨key, -, adds⟩)
    · exact .inl path
    · exact .inr ⟨key, adds⟩
  · rintro (path | ⟨key, adds⟩)
    · exact .inl path
    · exact .inr ⟨key, has_turn key adds, adds⟩

theorem knows_build : (build fields logic maxDepth).knows name = true ↔
    (∃ signature ∈ Signature.builtins, signature.name = name) ∨
      name ∈ (fields.types fieldRoot maxDepth).keys ∨ ∃ key, logic.Adds key name := by
  rw [knows, Bool.or_eq_true, contains_build, function?, functions_build, List.find?_isSome]
  simp only [decide_eq_true_eq]
  exact or_comm

/-- Of a name that no rule adds, only the fields tell something. -/
theorem get?_build_of_not_adds (h : ∀ key, ¬logic.Adds key name) :
    (build fields logic maxDepth).get? name = (ofFields fields maxDepth).get? name :=
  get?_foldl_recordKey_of_not_adds fun key _ ↦ h key

end Environment

end FormRules
