import FormRules.Proofs.Graph.Order
import FormRules.Scope.Dependency

/-!
# The dependency graph of rules

The nodes of the graph are the keys of the section, and so are all targets. An order of the rules is
therefore an arrangement of the keys.
-/

namespace FormRules

theorem mem_of_referencedKey? {name key : String} {keys : List String}
    (h : referencedKey? name keys = some key) : key ∈ keys := by
  rw [referencedKey?] at h
  split at h
  · next member =>
    cases h
    exact member
  · dsimp only at h
    split at h
    · next member =>
      cases h
      exact member.2.2
    · cases h

namespace LogicSection

variable {logic : LogicSection} {key other : String}

/-- The keys that a rule refers to. -/
def references (logic : LogicSection) (entry : LogicEntry) : List String :=
  (entry.value.variableNames.filterMap (referencedKey? · logic.keys)).eraseDups

theorem entries_dependencies (logic : LogicSection) :
    (dependencies logic).edges.entries =
      logic.entries.map fun entry ↦ (entry.1, references logic entry.2) := by
  have listed : (logic.entries.map fun entry ↦ (entry.1, references logic entry.2)) =
      (logic.entries.map fun entry ↦ (entry.1, entry.2.value.variableNames.filterMap
        (referencedKey? · logic.keys))).map fun edge ↦ (edge.1, edge.2.eraseDups) := by
    rw [List.map_map]
    rfl
  rw [listed]
  refine Keyed.ofList_eq_self ?_
  rw [← listed, Keyed.keys_map]
  exact logic.nodup

theorem nodes_dependencies (logic : LogicSection) : (dependencies logic).nodes = logic.keys := by
  rw [Graph.nodes, OrderedMap.keys, entries_dependencies, Keyed.keys_map]
  rfl

theorem targets_dependencies {entry : LogicEntry} (h : logic.get? key = some entry) :
    (dependencies logic).targets key = references logic entry := by
  rw [Graph.targets, OrderedMap.get?, entries_dependencies, Keyed.get?_map]
  rw [OrderedMap.get?] at h
  rw [h]
  rfl

theorem edge_dependencies_iff {entry : LogicEntry} (h : logic.get? key = some entry) :
    (dependencies logic).Edge key other ↔
      ∃ name ∈ entry.value.variableNames, referencedKey? name logic.keys = some other := by
  rw [Graph.Edge, targets_dependencies h, references, List.mem_eraseDups, List.mem_filterMap]

theorem vertices_dependencies : key ∈ (dependencies logic).vertices ↔ key ∈ logic.keys := by
  rw [Graph.mem_vertices_iff, nodes_dependencies]
  constructor
  · rintro (h | ⟨source, hs, edge⟩)
    · exact h
    · obtain ⟨entry, found⟩ := OrderedMap.mem_keys_iff.1 hs
      obtain ⟨name, -, target⟩ := (edge_dependencies_iff found).1 edge
      exact mem_of_referencedKey? target
  · exact .inl

theorem sorted_perm_keys (logic : LogicSection) : (order logic).sorted.Perm logic.keys := by
  refine (List.perm_ext_iff_of_nodup (Graph.nodup_sorted _) logic.nodup_keys).2 fun key ↦ ?_
  exact Graph.mem_sorted_iff.trans vertices_dependencies

end LogicSection

/-- An order lists what is declared or targeted, each once, the cyclic nodes last, and any other
target before what leads to it. -/
theorem Graph.order_complete :
    (∀ (ν : Type) [DecidableEq ν] (g : Graph ν),
      g.order.sorted.Nodup ∧
      (∀ v, v ∈ g.order.sorted ↔ v ∈ g.nodes ∨ ∃ u ∈ g.nodes, v ∈ g.targets u) ∧
      g.order.cyclic <:+ g.order.sorted ∧
      ∀ v w, w ∈ g.targets v → v ∉ g.order.cyclic → w ∉ g.order.cyclic →
        g.order.sorted.idxOf w < g.order.sorted.idxOf v) ∧
    ∀ logic : LogicSection, (LogicSection.order logic).sorted.Perm logic.keys := by
  refine ⟨fun ν _ g ↦ ⟨g.nodup_sorted, fun v ↦ ?_, ?_, fun v w edge hv hw ↦ ?_⟩,
    LogicSection.sorted_perm_keys⟩
  · rw [Graph.mem_sorted_iff, Graph.mem_vertices_iff]
    rfl
  · rw [Graph.sorted_eq]
    exact List.suffix_append _ _
  · rw [Graph.mem_cyclic_iff] at hv hw
    exact Graph.idxOf_sorted_lt edge hv hw

theorem Graph.order_complete_beside_cycle :
    let g : Graph Nat := .ofList [(0, [1, 2]), (1, [0]), (2, [3])]
    3 ∈ g.targets 2 ∧ 2 ∉ g.order.cyclic ∧ 3 ∉ g.order.cyclic ∧
      g.order.sorted.idxOf 3 < g.order.sorted.idxOf 2 :=
  ⟨by decide, by decide +kernel, by decide +kernel,
    (Graph.order_complete.1 Nat _).2.2.2 2 3 (by decide) (by decide +kernel) (by decide +kernel)⟩

end FormRules
