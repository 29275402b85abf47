import FormRules.Proofs.Scope.Contents

/-!
# The shape of environments

What a finished environment tells of a name comes from the last rule that adds it, or from the
fields if no rule does. Fields are certain of the types that they declare and rules never are, and
neither tells anything of a type that is not known. The rules on cycles have their turns last, so
nothing is known of the names that they add, whatever other rules have told of them before.
-/

namespace FormRules

namespace Inference

/-- A type is known exactly if there is some confidence in it. -/
def Settled (i : Inference) : Prop := i.type = .unknown ↔ i.confidence = .unknown

/-- What a rule can tell of a name: its type is known or not, but never for certain. -/
structure Derived (i : Inference) : Prop where
  settled : i.Settled
  uncertain : i.confidence ≠ .certain

/-- There is no confidence in a type that is not known. -/
def Cautious (i : Inference) : Prop := i.type = .unknown → i.confidence = .unknown

theorem settled_unknown : unknown.Settled := ⟨fun _ ↦ rfl, fun _ ↦ rfl⟩

theorem settled_ofDeclared (type : ValueType) : (ofDeclared type).Settled := by
  unfold ofDeclared
  split
  · exact settled_unknown
  · next known => exact ⟨fun h ↦ absurd h known, fun h ↦ by cases h⟩

theorem derived_unknown : unknown.Derived := ⟨settled_unknown, by decide⟩

theorem derived_inferred {type : ValueType} (known : type ≠ .unknown) : (inferred type).Derived :=
  ⟨⟨fun h ↦ absurd h known, fun h ↦ by cases h⟩, fun h ↦ by cases h⟩

/-! ## The results of operators -/

theorem cautious_certain {type : ValueType} (known : type ≠ .unknown) : (certain type).Cautious :=
  fun h ↦ absurd h known

theorem cautious_unary (op : UnaryOp) {operand : Inference} (h : operand.Cautious) :
    (unary op operand).Cautious := by
  cases op with
  | not =>
    intro type_unknown
    cases type_unknown
  | negate =>
    unfold unary
    dsimp only
    split
    · exact h
    · exact fun _ ↦ rfl

theorem cautious_binary (op : BinaryOp) (left right : Inference) :
    (binary op left right).Cautious := by
  unfold binary
  dsimp only
  split
  · intro type_unknown
    cases type_unknown
  · split
    · intro type_unknown
      cases type_unknown
    · split
      · intro type_unknown
        cases type_unknown
      · exact fun _ ↦ rfl

theorem cautious_call (signature : Option Signature) (arity : Nat) :
    (call signature arity).Cautious := by
  unfold call
  split
  · split
    · next fits =>
      have known := (Bool.and_eq_true_iff.1 fits).1
      exact cautious_certain (of_decide_eq_true known)
    · exact fun _ ↦ rfl
  · exact fun _ ↦ rfl

end Inference

theorem FieldType.valueType_ne_unknown {type : FieldType} (composite : type.isComposite = true) :
    type.valueType ≠ .unknown := by
  cases type <;> first | decide | cases composite

/-- If an environment has no confidence in unknown types, then inference in it has none either. -/
theorem Expr.cautious_infer {env : Environment}
    (known : ∀ name inference, env.get? name = some inference → inference.Cautious)
    (e : Expr) : (e.infer env).Cautious := by
  cases e with
  | literal value _ =>
    intro type_unknown
    cases value <;> cases type_unknown
  | reference name _ =>
    rw [infer]
    cases found : env.get? name with
    | none => exact fun _ ↦ rfl
    | some inference => exact known name inference found
  | unary op operand _ => exact Inference.cautious_unary op (cautious_infer known operand)
  | binary op left right _ =>
    rw [infer]
    split
    · exact Inference.cautious_certain (by decide)
    · exact Inference.cautious_binary op _ _
  | call name arguments _ => exact Inference.cautious_call _ _

namespace Environment

variable {env : Environment} {fields : Fields} {logic : LogicSection} {maxDepth : Nat}
  {order : Order String} {key name : String} {keys : List String} {entry : LogicEntry}
  {names : List (String × Inference)}

/-! ## What a rule tells -/

theorem derived_inferRule (env : Environment) (text : String) : (env.inferRule text).Derived := by
  unfold inferRule
  split
  · split
    · next confident =>
      have known := (Bool.and_eq_true_iff.1 confident).1
      exact Inference.derived_inferred (of_decide_eq_true known)
    · exact Inference.derived_unknown
  · exact Inference.derived_unknown

theorem derived_inferEntry (env : Environment) (entry : LogicEntry) :
    (env.inferEntry entry).Derived := by
  unfold inferEntry
  split
  · exact Inference.derived_inferred (by decide)
  · exact derived_inferRule env _
  · split
    · next composite => exact Inference.derived_inferred (FieldType.valueType_ne_unknown composite)
    · exact Inference.derived_unknown

theorem derived_inferProperty (env : Environment) {property : String × ValueType}
    (member : property ∈ entry.type.properties) : (env.inferProperty entry property).Derived := by
  unfold inferProperty
  split
  · split
    · exact derived_inferRule env _
    · exact Inference.derived_unknown
  · dsimp only
    split
    · exact Inference.derived_inferred (entry.type.properties_ne_unknown property member)
    · exact Inference.derived_unknown

theorem derived_of_mem_ruleNames {added : String × Inference}
    (h : added ∈ ruleNames key entry (env.inferEntry entry) (env.inferProperty entry)) :
    added.2.Derived := by
  rcases List.mem_cons.1 h with rfl | h
  · exact derived_inferEntry env entry
  · obtain ⟨property, member, rfl⟩ := List.mem_map.1 h
    exact derived_inferProperty env member

/-! ## One turn -/

/-- A name that is among those written tells what was written for it, the last time if it is there
more than once. -/
theorem exists_get?_insertAll (env : Environment) (h : name ∈ names.map Prod.fst) :
    ∃ inference, (name, inference) ∈ names ∧ (env.insertAll names).get? name = some inference := by
  induction names generalizing env with
  | nil => cases h
  | cons first rest ih =>
    by_cases later : name ∈ rest.map Prod.fst
    · obtain ⟨inference, member, found⟩ := ih (env.insert first.1 first.2) later
      exact ⟨inference, List.mem_cons_of_mem _ member, found⟩
    · have same : first.1 = name := by
        rcases List.mem_cons.1 h with here | there
        · exact here.symm
        · exact absurd there later
      have untouched : ∀ added ∈ rest, added.1 ≠ name :=
        fun added member e ↦ later (List.mem_map.2 ⟨added, member, e⟩)
      refine ⟨first.2, same ▸ List.mem_cons_self, ?_⟩
      refine (get?_insertAll_of_notMem untouched).trans ?_
      rw [get?_insert, if_pos same]

theorem exists_get?_recordKey (adds : logic.Adds key name) : ∃ inference,
    (recordKey logic order env key).get? name = some inference ∧ inference.Derived := by
  obtain ⟨entry, found, listed⟩ := adds
  unfold recordKey
  rw [found]
  dsimp only
  split
  · rw [← map_fst_ruleNames key entry .unknown fun _ ↦ .unknown] at listed
    obtain ⟨inference, member, told⟩ := exists_get?_insertAll env listed
    have nothing : inference = .unknown := unknown_of_mem_ruleNames member
    exact ⟨inference, told, nothing ▸ Inference.derived_unknown⟩
  · rw [← map_fst_ruleNames key entry (env.inferEntry entry) (env.inferProperty entry)] at listed
    obtain ⟨inference, member, told⟩ := exists_get?_insertAll env listed
    exact ⟨inference, told, derived_of_mem_ruleNames member⟩

theorem get?_recordKey_of_cyclic (adds : logic.Adds key name) (cyclic : order.isCyclic key = true) :
    (recordKey logic order env key).get? name = some .unknown := by
  obtain ⟨entry, found, listed⟩ := adds
  unfold recordKey
  rw [found]
  dsimp only
  rw [if_pos cyclic]
  rw [← map_fst_ruleNames key entry .unknown fun _ ↦ .unknown] at listed
  obtain ⟨inference, member, told⟩ := exists_get?_insertAll env listed
  have nothing : inference = .unknown := unknown_of_mem_ruleNames member
  exact nothing ▸ told

/-! ## A run of turns -/

/-- Of a name that rules add in a run, the last of them tells. -/
theorem get?_foldl_recordKey_of_adds {told : Inference → Prop}
    (turn : ∀ key ∈ keys, ∀ env : Environment, logic.Adds key name →
      ∃ inference, (recordKey logic order env key).get? name = some inference ∧ told inference)
    (added : ∃ key ∈ keys, logic.Adds key name) : ∃ inference,
      (keys.foldl (recordKey logic order) env).get? name = some inference ∧ told inference := by
  induction keys generalizing env with
  | nil =>
    obtain ⟨key, member, -⟩ := added
    cases member
  | cons key rest ih =>
    obtain ⟨first, further⟩ := List.forall_mem_cons.1 turn
    by_cases later : ∃ key ∈ rest, logic.Adds key name
    · exact ih further later
    · push Not at later
      have adds : logic.Adds key name := by
        obtain ⟨writer, member, adds⟩ := added
        rcases List.mem_cons.1 member with rfl | member
        · exact adds
        · exact absurd adds (later writer member)
      rw [List.foldl_cons, get?_foldl_recordKey_of_not_adds later]
      exact first env adds

/-! ## The finished environment -/

theorem exists_adds_iff : (∃ key, logic.Adds key name) ↔ name ∈ logic.keys ∨
    ∃ key entry, logic.get? key = some entry ∧
      ∃ property ∈ entry.type.properties, name = Field.within key property.1 := by
  constructor
  · rintro ⟨key, entry, found, listed⟩
    rcases List.mem_cons.1 listed with rfl | listed
    · exact .inl (OrderedMap.mem_keys_iff.2 ⟨entry, found⟩)
    · obtain ⟨property, member, rfl⟩ := List.mem_map.1 listed
      exact .inr ⟨key, entry, found, property, member, rfl⟩
  · rintro (declared | ⟨key, entry, found, property, member, rfl⟩)
    · obtain ⟨entry, found⟩ := OrderedMap.mem_keys_iff.1 declared
      exact ⟨name, entry, found, List.mem_cons_self⟩
    · exact ⟨key, entry, found, LogicEntry.within_mem_names member⟩

theorem settled_ofFields {inference : Inference}
    (h : (ofFields fields maxDepth).get? name = some inference) :
    name ∈ (fields.types fieldRoot maxDepth).keys ∧ inference.Settled := by
  have path : name ∈ (fields.types fieldRoot maxDepth).keys := by
    rw [← contains_ofFields, contains, OrderedMap.contains]
    exact Option.isSome_iff_exists.2 ⟨inference, h⟩
  refine ⟨path, ?_⟩
  have listed : name ∈ ((fields.types fieldRoot maxDepth).entries.map fun path ↦
      (path.1, Inference.ofDeclared path.2)).map Prod.fst := by
    rw [List.map_map]
    exact path
  obtain ⟨declared, member, told⟩ := exists_get?_insertAll initial listed
  obtain ⟨⟨_, type⟩, -, same⟩ := List.mem_map.1 member
  have same_inference : inference = declared := Option.some.inj (h.symm.trans told)
  cases same
  rw [same_inference]
  exact Inference.settled_ofDeclared type

theorem exists_get?_build_of_adds (fields : Fields) (maxDepth : Nat)
    (adds : logic.Adds key name) : ∃ inference,
    (build fields logic maxDepth).get? name = some inference ∧ inference.Derived := by
  have sorted := (LogicSection.sorted_perm_keys logic).mem_iff.2 adds.mem_keys
  exact get?_foldl_recordKey_of_adds (fun _ _ _ adds ↦ exists_get?_recordKey adds)
    ⟨key, sorted, adds⟩

/-- Nothing is known of the names that a rule on a cycle adds. -/
theorem get?_build_of_cyclic (adds : logic.Adds key name)
    (cyclic : key ∈ (LogicSection.order logic).cyclic) :
    (build fields logic maxDepth).get? name = some .unknown := by
  rw [build, LogicSection.order, Graph.sorted_eq, List.foldl_append, ← LogicSection.order]
  obtain ⟨inference, told, rfl⟩ := get?_foldl_recordKey_of_adds
    (fun key member env adds ↦ ⟨_, get?_recordKey_of_cyclic adds (decide_eq_true member), rfl⟩)
    ⟨key, cyclic, adds⟩
  exact told

/-- What is known of a name in a finished environment is settled, and if it is certain then a field
tells it and no rule does. -/
theorem settled_build {inference : Inference}
    (h : (build fields logic maxDepth).get? name = some inference) :
    inference.Settled ∧ (inference.confidence = .certain →
      name ∈ (fields.types fieldRoot maxDepth).keys ∧ ∀ key, ¬logic.Adds key name) := by
  by_cases added : ∃ key, logic.Adds key name
  · obtain ⟨key, adds⟩ := added
    obtain ⟨told, found, derived⟩ := exists_get?_build_of_adds fields maxDepth adds
    have same : inference = told := Option.some.inj (h.symm.trans found)
    rw [same]
    exact ⟨derived.settled, fun certain ↦ absurd certain derived.uncertain⟩
  · push Not at added
    rw [get?_build_of_not_adds added] at h
    obtain ⟨path, settled⟩ := settled_ofFields h
    exact ⟨settled, fun _ ↦ ⟨path, added⟩⟩

/-- The shape of every environment that can be built, whatever the keys of its rules are. -/
theorem build_shaped (fields : Fields) (logic : LogicSection) (maxDepth : Nat) :
    let env := build fields logic maxDepth
    (∀ name, env.contains name = true ↔
      name ∈ (fields.types fieldRoot maxDepth).keys ∨ name ∈ logic.keys ∨
        ∃ key entry, logic.get? key = some entry ∧
          ∃ property ∈ entry.type.properties, name = Field.within key property.1) ∧
    (∀ name inference, env.get? name = some inference →
      (inference.type = .unknown ↔ inference.confidence = .unknown) ∧
      (inference.confidence = .certain →
        name ∈ (fields.types fieldRoot maxDepth).keys ∧ ∀ key, ¬logic.Adds key name)) ∧
    (∀ key ∈ (LogicSection.order logic).cyclic, ∃ entry, logic.get? key = some entry ∧
      env.get? key = some .unknown ∧
      ∀ property ∈ entry.type.properties, env.get? (Field.within key property.1) = some .unknown) ∧
    ∀ e : Expr, (e.infer env).type = .unknown → (e.infer env).confidence = .unknown := by
  refine ⟨?_, ?_, ?_, ?_⟩
  · intro name
    rw [contains_build, exists_adds_iff]
  · exact fun name inference ↦ settled_build
  · intro key cyclic
    have declared := (Graph.cyclic_sublist _).mem cyclic
    rw [LogicSection.nodes_dependencies] at declared
    obtain ⟨entry, found⟩ := OrderedMap.mem_keys_iff.1 declared
    refine ⟨entry, found, ?_, ?_⟩
    · exact get?_build_of_cyclic ⟨entry, found, List.mem_cons_self⟩ cyclic
    · intro property member
      exact get?_build_of_cyclic ⟨entry, found, LogicEntry.within_mem_names member⟩ cyclic
  · exact Expr.cautious_infer fun name inference found ↦ (settled_build found).1.1

/-- A rule that takes the place of a field, and a rule on a cycle that takes the place of another
rule, which has told of a property of it before. -/
theorem build_shaped_of_colliding_names :
    let fields : Fields := .ofEntries
      [("age", ⟨.number, none, none, none, none, []⟩),
        ("name", ⟨.text, none, none, none, none, []⟩)]
    let logic : LogicSection := .ofList
      [("fields.name.value", ⟨.boolean, none, none, .literal true⟩),
        ("total", ⟨.money, none, none, .expression "total"⟩),
        ("total.amount", ⟨.number, none, none, .expression "1"⟩)]
    let env := build fields logic defaultMaxDepth
    env.contains "total.currency" = true ∧
      (env.get? "fields.age.value" = some (.certain .number) ∧
        ∀ key, ¬logic.Adds key "fields.age.value") ∧
      (env.get? "fields.name.value" = some (.inferred .boolean) ∧
        (ValueType.boolean = .unknown ↔ Confidence.inferred = .unknown)) ∧
      ("total" ∈ (LogicSection.order logic).cyclic ∧ env.get? "total.amount" = some .unknown) ∧
      ((Expr.reference "total" 0).infer env).confidence = .unknown := by
  intro fields logic env
  obtain ⟨contains_iff, told, cyclic_unknown, cautious⟩ :=
    build_shaped fields logic defaultMaxDepth
  have age : env.get? "fields.age.value" = some (.certain .number) := by decide +kernel
  have name : env.get? "fields.name.value" = some (.inferred .boolean) := by decide +kernel
  have cyclic : "total" ∈ (LogicSection.order logic).cyclic := by decide +kernel
  obtain ⟨entry, found, -, properties⟩ := cyclic_unknown "total" cyclic
  cases found
  refine ⟨?_, ⟨age, (told _ _ age).2 rfl |>.2⟩, ⟨name, (told _ _ name).1⟩, ⟨cyclic, ?_⟩, ?_⟩
  · exact (contains_iff _).2 (.inr (.inr ⟨"total", _, rfl, ("currency", .string), by decide, rfl⟩))
  · exact properties ("amount", .number) (by decide)
  · exact cautious (.reference "total" 0) (by decide +kernel)

end Environment

end FormRules
