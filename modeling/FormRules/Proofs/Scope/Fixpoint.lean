import FormRules.Proofs.Scope.Contents

/-!
# The finished environment

The rule of a key is inferred from the names that stand in the environment when its turn comes. Each
step of the run touches names with the root of its key alone, and the rules that an acyclic one
refers to have had their turn before it or are cyclic, so nothing that it has read changes later.
-/

namespace FormRules

namespace Environment

variable {logic : LogicSection} {order : Order String} {env : Environment} {key name : String}
  {entry : LogicEntry} {keys : List String}

theorem mem_variableNames {value : LogicValue} {property : Option String} {text : String}
    (h : (property, text) ∈ value.expressions) (used : name ∈ Expr.textVariables text) :
    name ∈ value.variableNames :=
  List.mem_flatMap.2 ⟨(property, text), h, used⟩

/-! ## One step -/

theorem get?_recordKey (plain : logic.Plain) (h : nameRoot name ≠ key) :
    (recordKey logic order env key).get? name = env.get? name :=
  get?_recordKey_of_not_adds fun adds ↦ h (adds.nameRoot plain)

theorem known_recordKey_of_cyclic (cyclic : order.isCyclic key = true)
    (unknown : env.known name = .unknown) :
    (recordKey logic order env key).known name = .unknown := by
  unfold recordKey
  split
  · exact unknown
  · rw [if_pos cyclic]
    exact known_insertAll_of_unknown (fun _ ↦ unknown_of_mem_ruleNames) unknown

/-! ## A run of steps -/

theorem get?_foldl_recordKey (plain : logic.Plain) (h : nameRoot name ∉ keys) :
    (keys.foldl (recordKey logic order) env).get? name = env.get? name := by
  apply get?_foldl_recordKey_of_not_adds
  rintro key member adds
  exact h (adds.nameRoot plain ▸ member)

/-- A name that is unknown stays so if the rule of its root is cyclic. -/
theorem known_foldl_recordKey (plain : logic.Plain) (cyclic : order.isCyclic (nameRoot name) = true)
    (unknown : env.known name = .unknown) :
    (keys.foldl (recordKey logic order) env).known name = .unknown := by
  induction keys generalizing env with
  | nil => exact unknown
  | cons key rest ih =>
    refine ih ?_
    by_cases own : nameRoot name = key
    · exact known_recordKey_of_cyclic (own ▸ cyclic) unknown
    · rw [known, get?_recordKey plain own]
      exact unknown

/-! ## The turn of a rule -/

variable {fields : Fields} {maxDepth : Nat} {pre post : List String}

/-- A rule that lies on no cycle has its turn after `pre` and before `post`. -/
structure Turn (logic : LogicSection) (key : String) (entry : LogicEntry)
    (pre post : List String) : Prop where
  found : logic.get? key = some entry
  acyclic : key ∉ (LogicSection.order logic).cyclic
  split : (LogicSection.order logic).sorted = pre ++ key :: post

theorem exists_turn (found : logic.get? key = some entry)
    (acyclic : key ∉ (LogicSection.order logic).cyclic) :
    ∃ pre post, Turn logic key entry pre post := by
  have declared : key ∈ logic.keys := OrderedMap.mem_keys_iff.2 ⟨entry, found⟩
  have sorted := (LogicSection.sorted_perm_keys logic).mem_iff.2 declared
  obtain ⟨pre, post, split⟩ := List.append_of_mem sorted
  exact ⟨pre, post, found, acyclic, split⟩

/-- The environment in which the turn after `pre` comes. -/
def upTo (fields : Fields) (logic : LogicSection) (maxDepth : Nat) (pre : List String) :
    Environment :=
  pre.foldl (recordKey logic (LogicSection.order logic)) (ofFields fields maxDepth)

namespace Turn

theorem build_eq (turn : Turn logic key entry pre post) :
    build fields logic maxDepth = post.foldl (recordKey logic (LogicSection.order logic))
      (recordKey logic (LogicSection.order logic) (upTo fields logic maxDepth pre) key) := by
  rw [build, turn.split, List.foldl_append]
  rfl

theorem nodup (turn : Turn logic key entry pre post) : (pre ++ key :: post).Nodup :=
  turn.split ▸ Graph.nodup_sorted _

theorem notMem_before (turn : Turn logic key entry pre post) : key ∉ pre := by
  intro before
  exact (List.nodup_append.1 turn.nodup).2.2 key before key List.mem_cons_self rfl

theorem notMem_after (turn : Turn logic key entry pre post) : key ∉ post :=
  (List.nodup_cons.1 (List.nodup_append.1 turn.nodup).2.1).1

theorem notMem_before_of_after (turn : Turn logic key entry pre post) (after : name ∈ post) :
    name ∉ pre := by
  intro before
  exact (List.nodup_append.1 turn.nodup).2.2 name before name (List.mem_cons_of_mem _ after) rfl

theorem mem_keys (turn : Turn logic key entry pre post) (h : name ∈ key :: post) :
    name ∈ logic.keys := by
  have sorted : name ∈ (LogicSection.order logic).sorted := by
    rw [turn.split]
    exact List.mem_append_right _ h
  exact (LogicSection.sorted_perm_keys logic).mem_iff.1 sorted

theorem mem_before_of_idxOf_lt (turn : Turn logic key entry pre post)
    (lt : (LogicSection.order logic).sorted.idxOf name <
      (LogicSection.order logic).sorted.idxOf key) : name ∈ pre := by
  have place : (pre ++ key :: post).idxOf key = pre.length := by
    rw [List.idxOf_append_of_notMem turn.notMem_before, List.idxOf_cons_self, Nat.add_zero]
  rw [turn.split, place] at lt
  by_contra absent
  rw [List.idxOf_append_of_notMem absent] at lt
  omega

/-- An acyclic rule refers to rules that have had their turn and to cyclic ones. -/
theorem cyclic_of_used (turn : Turn logic key entry pre post) (plain : logic.Plain)
    (used : name ∈ entry.value.variableNames) (later : nameRoot name ∈ key :: post) :
    nameRoot name ∈ post ∧ nameRoot name ∈ (LogicSection.order logic).cyclic := by
  have edge := LogicSection.edge_of_used plain turn.found used (turn.mem_keys later)
  have acyclic := turn.acyclic
  rw [LogicSection.order, Graph.mem_cyclic_iff] at acyclic ⊢
  have cyclic : (LogicSection.dependencies logic).OnCycle (nameRoot name) := by
    -- An acyclic rule that is referred to has had its turn, yet no key has two turns.
    by_contra straight
    have before := turn.mem_before_of_idxOf_lt (Graph.idxOf_sorted_lt edge acyclic straight)
    rcases List.mem_cons.1 later with own | later
    · exact turn.notMem_before (own ▸ before)
    · exact turn.notMem_before_of_after later before
  refine ⟨?_, cyclic⟩
  rcases List.mem_cons.1 later with own | later
  · exact absurd (own ▸ cyclic) acyclic
  · exact later

/-- What an acyclic rule reads when its turn comes is what stands in the finished environment. -/
theorem agree (turn : Turn logic key entry pre post) (plain : logic.Plain) :
    Agree entry.value.variableNames (upTo fields logic maxDepth pre)
      (build fields logic maxDepth) := by
  refine ⟨?_, ?_⟩
  · rw [turn.build_eq, functions_foldl_recordKey, functions_recordKey]
  · intro name used
    rw [turn.build_eq]
    by_cases later : nameRoot name ∈ key :: post
    -- The rule is cyclic, and its names are as unknown after it has been recorded as before.
    · have declared := turn.mem_keys later
      obtain ⟨later, cyclic⟩ := turn.cyclic_of_used plain used later
      have before : (upTo fields logic maxDepth pre).known name = .unknown := by
        rw [known, upTo, get?_foldl_recordKey plain (turn.notMem_before_of_after later),
          get?_ofFields (plain _ declared).2]
        rfl
      have other : nameRoot name ≠ key := by
        intro own
        rw [own] at later
        exact turn.notMem_after later
      have kept : (recordKey logic (LogicSection.order logic)
          (upTo fields logic maxDepth pre) key).known name = .unknown := by
        rw [known, get?_recordKey plain other]
        exact before
      rw [before, known_foldl_recordKey plain (decide_eq_true cyclic) kept]
    · rw [List.mem_cons, not_or] at later
      rw [known, known, get?_foldl_recordKey plain later.2, get?_recordKey plain later.1]

/-- Every name that a rule adds in its turn stands in the finished environment as it was added. -/
theorem get?_build (turn : Turn logic key entry pre post) (plain : logic.Plain)
    {added : String × Inference}
    (h : added ∈ ruleNames key entry ((upTo fields logic maxDepth pre).inferEntry entry)
      ((upTo fields logic maxDepth pre).inferProperty entry)) :
    (build fields logic maxDepth).get? added.1 = some added.2 := by
  have undotted := (plain key (turn.mem_keys List.mem_cons_self)).1
  have listed := List.mem_map_of_mem (f := Prod.fst) h
  rw [map_fst_ruleNames] at listed
  have root := LogicEntry.nameRoot_of_mem_names undotted listed
  have once : nameRoot added.1 ∉ post := by
    rw [root]
    exact turn.notMem_after
  have recorded : recordKey logic (LogicSection.order logic) (upTo fields logic maxDepth pre) key =
      (upTo fields logic maxDepth pre).record key entry := by
    unfold recordKey
    rw [turn.found]
    exact if_neg fun cyclic ↦ turn.acyclic (of_decide_eq_true cyclic)
  rw [turn.build_eq, get?_foldl_recordKey plain once, recorded]
  refine get?_insertAll ?_ h
  rw [map_fst_ruleNames]
  exact entry.nodup_names undotted

end Turn

/-- The finished environment is a fixpoint of inference: a rule that lies on no cycle, and each
property that an object gives for one, is known as its expression is inferred there. -/
theorem build_fixpoint (fields : Fields) (logic : LogicSection) (maxDepth : Nat)
    (plain : ∀ key ∈ logic.keys, '.' ∉ key.toList ∧ key ≠ fieldRoot) (key : String)
    (entry : LogicEntry) (found : logic.get? key = some entry)
    (acyclic : key ∉ (LogicSection.order logic).cyclic) :
    (∀ text, entry.value = .expression text →
      (build fields logic maxDepth).get? key =
        some ((build fields logic maxDepth).inferRule text)) ∧
    ∀ properties, entry.value = .object properties → ∀ property ∈ entry.type.properties,
      (build fields logic maxDepth).get? (Field.within key property.1) =
        some (match properties.get? property.1 with
          | some leaf => (build fields logic maxDepth).inferRule leaf
          | none => .unknown) := by
  obtain ⟨pre, post, turn⟩ := exists_turn found acyclic
  have agree : Agree entry.value.variableNames (upTo fields logic maxDepth pre)
      (build fields logic maxDepth) := turn.agree plain
  constructor
  · intro text value
    rw [turn.get?_build plain List.mem_cons_self, inferEntry, value]
    have listed : (none, text) ∈ entry.value.expressions := by
      rw [value]
      exact List.mem_singleton_self _
    exact congrArg some (inferRule_eq_of_agree (agree.mono fun _ ↦ mem_variableNames listed))
  · intro properties value property member
    rw [turn.get?_build plain (List.mem_cons_of_mem _ (List.mem_map_of_mem member)),
      inferProperty, value]
    dsimp only
    cases given : properties.get? property.1 with
    | none => rfl
    | some leaf =>
      have listed : (some property.1, leaf) ∈ entry.value.expressions := by
        rw [value]
        exact List.mem_map_of_mem (OrderedMap.mem_entries_iff.2 given)
      exact congrArg some (inferRule_eq_of_agree (agree.mono fun _ ↦ mem_variableNames listed))

/-- A rule that reads a rule on a cycle and a property of an object, before both. -/
theorem build_fixpoint_beside_cycle :
    let properties : OrderedMap String String := .ofList [("amount", "1 + 1")]
    let logic : LogicSection := .ofList
      [("ready", ⟨.boolean, none, none, .expression "total.amount > 1 and again"⟩),
        ("again", ⟨.boolean, none, none, .expression "not again"⟩),
        ("total", ⟨.money, none, none, .object properties⟩)]
    let env := build .empty logic defaultMaxDepth
    env.get? "ready" = some (env.inferRule "total.amount > 1 and again") ∧
      env.get? "total.amount" = some (env.inferRule "1 + 1") := by
  intro properties logic env
  have plain : ∀ key ∈ logic.keys, '.' ∉ key.toList ∧ key ≠ fieldRoot := by decide +kernel
  constructor
  · exact (build_fixpoint .empty logic defaultMaxDepth plain "ready" _ rfl (by decide +kernel)).1
      _ rfl
  · exact (build_fixpoint .empty logic defaultMaxDepth plain "total" _ rfl (by decide +kernel)).2
      properties rfl ("amount", .number) (by decide)

end Environment

end FormRules
