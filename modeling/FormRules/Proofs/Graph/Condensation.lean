import FormRules.Proofs.Graph.Run

/-!
# The condensation of a graph

The components share out the vertices, two vertices share a component if each reaches the other, and
every edge between two components leads to the one that stands earlier.
-/

namespace FormRules

namespace Search

variable {ν : Type} [DecidableEq ν] {g : Graph ν} {s s' : Search ν}

/-- A component that is finished holds its root at least. -/
theorem Move.nil_notMem_components (move : Move g s s') (h : [] ∉ s.components) :
    [] ∉ s'.components := by
  cases move with
  | discover => exact h
  | touch => exact h
  | skip => exact h
  | retreat => exact h
  | finish frames done stack root =>
    intro empty
    rcases List.mem_append.1 empty with old | new
    · exact h old
    · have reversed := List.reverse_eq_nil_iff.1 (List.mem_singleton.1 new).symm
      exact List.cons_ne_nil _ _ (List.append_eq_nil_iff.1 reversed).2

end Search

namespace Graph

variable {ν : Type} [DecidableEq ν] {g : Graph ν} {v w : ν}

theorem nil_notMem_components (g : Graph ν) : [] ∉ g.components :=
  Search.search_induction g (P := fun s ↦ [] ∉ s.components) List.not_mem_nil
    (fun _ _ _ _ _ h ↦ h) fun _ _ _ move ↦ move.nil_notMem_components

theorem exists_shared_component_iff (hv : v ∈ g.vertices) :
    (∃ c ∈ g.components, v ∈ c ∧ w ∈ c) ↔ g.Reaches v w ∧ g.Reaches w v := by
  constructor
  · rintro ⟨c, hc, hvc, hwc⟩
    exact ⟨reaches_of_mem_components hc hvc hwc, reaches_of_mem_components hc hwc hvc⟩
  · rintro ⟨there, back⟩
    obtain ⟨c, hc, hvc⟩ := exists_component hv
    have closed : ∀ u ∈ g.components.flatten, ∀ x, g.Edge u x → x ∈ g.components.flatten :=
      fun u _ x edge ↦ mem_components_iff.2 (mem_vertices_of_mem_targets edge)
    have hw : w ∈ g.components.flatten := there.mem_of_closed closed (mem_components_iff.2 hv)
    obtain ⟨d, hd, hwd⟩ := List.mem_flatten.1 hw
    obtain rfl := eq_of_reaches hc hd hvc hwd there back
    exact ⟨c, hc, hvc, hwd⟩

theorem lt_of_edge {i j : Nat} (hi : i < g.components.length) (hj : j < g.components.length)
    (hv : v ∈ g.components[i]) (hw : w ∈ g.components[j]) (edge : g.Edge v w) (ne : i ≠ j) :
    j < i := by
  by_contra le
  have apart := List.pairwise_iff_getElem.1 (pairwise_components g) i j hi hj (by omega)
  exact apart v hv w hw (.single edge)

/-- The finished components are a partition of what is declared or targeted into the classes of
vertices that reach each other, and whatever an edge leads to in another component comes first. -/
theorem components_exact (g : Graph ν) :
    ([] ∉ g.components ∧ g.components.flatten.Nodup ∧
      ∀ v, v ∈ g.components.flatten ↔ v ∈ g.nodes ∨ ∃ u ∈ g.nodes, v ∈ g.targets u) ∧
    (∀ v ∈ g.components.flatten, ∀ w ∈ g.components.flatten,
      (∃ c ∈ g.components, v ∈ c ∧ w ∈ c) ↔ g.Reaches v w ∧ g.Reaches w v) ∧
    ∀ i j (hi : i < g.components.length) (hj : j < g.components.length) (v w : ν),
      v ∈ g.components[i] → w ∈ g.components[j] → w ∈ g.targets v → i ≠ j → j < i := by
  refine ⟨⟨g.nil_notMem_components, g.nodup_components, fun v ↦ ?_⟩, fun v hv w _ ↦ ?_, ?_⟩
  · rw [mem_components_iff, mem_vertices_iff]
    rfl
  · exact exists_shared_component_iff (mem_components_iff.1 hv)
  · intro i j hi hj v w hv hw edge ne
    exact lt_of_edge hi hj hv hw edge ne

/-- Two circles that share a vertex, one of which leads to a target that is not declared. -/
theorem components_exact_of_joined_circles :
    let g : Graph Nat := .ofList [(0, [1]), (1, [2, 0]), (2, [1, 3])]
    g.components = [[3], [0, 1, 2]] ∧ (g.Reaches 0 2 ∧ g.Reaches 2 0) ∧
      (3 ∈ g.targets 2 ∧ 1 ≠ 0 ∧ 0 < 1) := by
  intro g
  have components : g.components = [[3], [0, 1, 2]] := by decide +kernel
  have law := components_exact g
  refine ⟨components, ?_, by decide, by decide, ?_⟩
  · refine (law.2.1 0 (by decide +kernel) 2 (by decide +kernel)).1 ⟨[0, 1, 2], ?_, ?_⟩
    · decide +kernel
    · decide
  · exact law.2.2 1 0 (by decide +kernel) (by decide +kernel) 2 3 (by decide +kernel)
      (by decide +kernel) (by decide) (by decide)

end Graph

end FormRules
