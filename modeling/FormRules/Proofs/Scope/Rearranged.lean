import FormRules.Proofs.Scope.Finished
import FormRules.Proofs.Scope.Shape

/-!
# Rules in another order

Two sections with the same rules in different orders have the same dependencies, and so the same
rules are on cycles. Every other rule is inferred in the finished environment from rules that it
depends on, so by induction along the order of either section both environments tell the same.
-/

namespace FormRules

theorem referencedKey?_congr {name : String} {keys keys' : List String}
    (same : ∀ key, key ∈ keys ↔ key ∈ keys') :
    referencedKey? name keys = referencedKey? name keys' := by
  simp only [referencedKey?, same]

namespace LogicSection

variable {logic logic' : LogicSection} {key name : String}

theorem Plain.of_perm (plain : logic.Plain) (perm : logic.entries.Perm logic'.entries) :
    logic'.Plain := by
  intro key declared
  exact plain key ((OrderedMap.mem_keys_of_perm perm).2 declared)

theorem adds_iff_of_perm (perm : logic.entries.Perm logic'.entries) :
    logic.Adds key name ↔ logic'.Adds key name := by
  rw [Adds, Adds, OrderedMap.get?_eq_of_perm perm]

theorem edge_iff_of_perm (perm : logic.entries.Perm logic'.entries) {other : String} :
    (dependencies logic).Edge key other ↔ (dependencies logic').Edge key other := by
  have same : ∀ key, key ∈ logic.keys ↔ key ∈ logic'.keys :=
    fun key ↦ OrderedMap.mem_keys_of_perm perm
  cases found : logic.get? key with
  | none =>
    have undeclared : key ∉ logic.keys := by
      intro declared
      obtain ⟨entry, found'⟩ := OrderedMap.mem_keys_iff.1 declared
      rw [found] at found'
      cases found'
    constructor
    · intro edge
      exact absurd (nodes_dependencies logic ▸ edge.mem_nodes) undeclared
    · intro edge
      exact absurd ((same key).2 (nodes_dependencies logic' ▸ edge.mem_nodes)) undeclared
  | some entry =>
    have found' : logic'.get? key = some entry := OrderedMap.get?_eq_of_perm perm key ▸ found
    rw [edge_dependencies_iff found, edge_dependencies_iff found']
    simp only [referencedKey?_congr same]

/-- The same rules are on cycles. -/
theorem mem_cyclic_iff_of_perm (perm : logic.entries.Perm logic'.entries) :
    key ∈ (order logic).cyclic ↔ key ∈ (order logic').cyclic := by
  have edges : (dependencies logic).Edge = (dependencies logic').Edge := by
    funext key other
    exact propext (edge_iff_of_perm perm)
  rw [order, order, Graph.mem_cyclic_iff, Graph.mem_cyclic_iff, Graph.OnCycle, Graph.OnCycle, edges]

end LogicSection

namespace Environment

variable {fields : Fields} {logic logic' : LogicSection} {maxDepth : Nat} {key name : String}
  {entry : LogicEntry}

/-- If the rules before a rule are known alike, so are the names that it adds. -/
theorem get?_build_eq_of_agree (plain : logic.Plain) (perm : logic.entries.Perm logic'.entries)
    (found : logic.get? key = some entry) (acyclic : key ∉ (LogicSection.order logic).cyclic)
    (listed : name ∈ entry.names key)
    (agree : Agree entry.value.variableNames (build fields logic maxDepth)
      (build fields logic' maxDepth)) :
    (build fields logic maxDepth).get? name = (build fields logic' maxDepth).get? name := by
  have found' : logic'.get? key = some entry := OrderedMap.get?_eq_of_perm perm key ▸ found
  have acyclic' : key ∉ (LogicSection.order logic').cyclic :=
    mt (LogicSection.mem_cyclic_iff_of_perm perm).2 acyclic
  have properties := funext (inferProperty_eq_of_agree agree)
  rw [← map_fst_ruleNames key entry ((build fields logic maxDepth).inferEntry entry)
    ((build fields logic maxDepth).inferProperty entry)] at listed
  obtain ⟨added, member, rfl⟩ := List.mem_map.1 listed
  rw [get?_build_of_acyclic plain found acyclic member]
  rw [inferEntry_eq_of_agree agree, properties] at member
  rw [get?_build_of_acyclic (plain.of_perm perm) found' acyclic' member]

/-- A name that no rule outside cycles adds is known alike. -/
theorem get?_build_eq_of_settled (perm : logic.entries.Perm logic'.entries)
    (settled : ∀ key, logic.Adds key name → key ∈ (LogicSection.order logic).cyclic) :
    (build fields logic maxDepth).get? name = (build fields logic' maxDepth).get? name := by
  by_cases added : ∃ key, logic.Adds key name
  · obtain ⟨key, adds⟩ := added
    have cyclic := settled key adds
    have adds' := (LogicSection.adds_iff_of_perm perm).1 adds
    have cyclic' := (LogicSection.mem_cyclic_iff_of_perm perm).1 cyclic
    rw [get?_build_of_cyclic adds cyclic, get?_build_of_cyclic adds' cyclic']
  · have nowhere : ∀ key, ¬logic.Adds key name := fun key adds ↦ added ⟨key, adds⟩
    have nowhere' : ∀ key, ¬logic'.Adds key name :=
      fun key adds ↦ nowhere key ((LogicSection.adds_iff_of_perm perm).2 adds)
    rw [get?_build_of_not_adds nowhere, get?_build_of_not_adds nowhere']

/-- The names that a rule outside cycles adds are known alike. The induction is on its turn. -/
theorem get?_build_eq_of_adds (plain : logic.Plain) (perm : logic.entries.Perm logic'.entries)
    (adds : logic.Adds key name) (acyclic : key ∉ (LogicSection.order logic).cyclic) :
    (build fields logic maxDepth).get? name = (build fields logic' maxDepth).get? name := by
  induction turn : (LogicSection.order logic).sorted.idxOf key using Nat.strong_induction_on
    generalizing key name with
  | h place ih =>
    obtain ⟨entry, found, listed⟩ := adds
    apply get?_build_eq_of_agree plain perm found acyclic listed
    refine ⟨by rw [functions_build, functions_build], ?_⟩
    intro used member
    have same : (build fields logic maxDepth).get? used =
        (build fields logic' maxDepth).get? used := by
      by_cases settled : ∀ other, logic.Adds other used → other ∈ (LogicSection.order logic).cyclic
      · exact get?_build_eq_of_settled perm settled
      · push Not at settled
        obtain ⟨other, adds, straight⟩ := settled
        have root := adds.nameRoot plain
        have edge := LogicSection.edge_of_used plain found member (root ▸ adds.mem_keys)
        rw [root] at edge
        have earlier := Graph.idxOf_sorted_lt edge (mt Graph.mem_cyclic_iff.2 acyclic)
          (mt Graph.mem_cyclic_iff.2 straight)
        exact ih _ (turn ▸ earlier) adds straight rfl
    rw [known, known, same]

/-- The order of the rules makes no difference to what is known of a name. -/
theorem get?_build_of_perm (plain : logic.Plain) (perm : logic.entries.Perm logic'.entries)
    (name : String) :
    (build fields logic maxDepth).get? name = (build fields logic' maxDepth).get? name := by
  by_cases settled : ∀ key, logic.Adds key name → key ∈ (LogicSection.order logic).cyclic
  · exact get?_build_eq_of_settled perm settled
  · push Not at settled
    obtain ⟨key, adds, acyclic⟩ := settled
    exact get?_build_eq_of_adds plain perm adds acyclic

end Environment

end FormRules
