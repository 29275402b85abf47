import FormRules.Proofs.Graph.Component
import Mathlib.Data.List.Flatten
import Mathlib.Data.List.Nodup

/-!
# The evaluation order

The cyclic nodes of an order are the declared nodes on cycles. The order lists every vertex once,
the cyclic nodes last, and an edge between other vertices leads to an earlier one.
-/

namespace FormRules.Graph

open Relation

variable {ν : Type} [DecidableEq ν] {g : Graph ν} {c : List ν} {v w : ν}

theorem isCycle_iff (hc : c ∈ g.components) (hv : v ∈ c) : g.isCycle c = true ↔ g.OnCycle v := by
  constructor
  · intro cycle
    match c with
    | [u] =>
      rw [List.mem_singleton.1 hv]
      exact .single (hasEdge_eq_true_iff.1 cycle)
    | x :: y :: rest =>
      -- Two members of a component differ, so one of them is not `v`.
      have nodup : (x :: y :: rest).Nodup :=
        (List.nodup_flatten.1 (nodup_components g)).1 _ hc
      have ne : x ≠ y := fun e ↦ (List.nodup_cons.1 nodup).1 (e ▸ List.mem_cons_self)
      obtain ⟨u, hu, other⟩ : ∃ u ∈ x :: y :: rest, v ≠ u := by
        by_cases e : v = x
        · exact ⟨y, List.mem_cons_of_mem _ List.mem_cons_self, e ▸ ne⟩
        · exact ⟨x, List.mem_cons_self, e⟩
      exact onCycle_of_reaches (reaches_of_mem_components hc hv hu)
        (reaches_of_mem_components hc hu hv) other
  · intro cycle
    obtain ⟨w, edge, back⟩ := cycle.exists_edge
    obtain ⟨d, hd, hw⟩ := exists_component (mem_vertices_of_mem_targets edge)
    obtain rfl := eq_of_reaches hc hd hv hw (.single edge) back
    match c with
    | [u] =>
      rw [List.mem_singleton] at hv hw
      rw [hv, hw] at edge
      exact hasEdge_eq_true_iff.2 edge
    | _ :: _ :: _ => rfl

theorem mem_cycles_iff : v ∈ (g.components.filter g.isCycle).flatten ↔ g.OnCycle v := by
  rw [List.mem_flatten]
  constructor
  · rintro ⟨c, hc, hv⟩
    obtain ⟨hc, cycle⟩ := List.mem_filter.1 hc
    exact (isCycle_iff hc hv).1 cycle
  · intro cycle
    obtain ⟨c, hc, hv⟩ := exists_component (mem_vertices_of_mem_nodes cycle.mem_nodes)
    exact ⟨c, List.mem_filter.2 ⟨hc, (isCycle_iff hc hv).2 cycle⟩, hv⟩

theorem mem_cyclic_iff : v ∈ g.order.cyclic ↔ g.OnCycle v := by
  have split : v ∈ g.order.cyclic ↔ v ∈ g.nodes ∧ v ∈ (g.components.filter g.isCycle).flatten := by
    rw [order, List.mem_filter, decide_eq_true_iff]
  rw [split, mem_cycles_iff]
  exact and_iff_right_of_imp OnCycle.mem_nodes

theorem cyclic_sublist (g : Graph ν) : g.order.cyclic.Sublist g.nodes := List.filter_sublist

theorem nodup_cyclic (g : Graph ν) : g.order.cyclic.Nodup := g.cyclic_sublist.nodup g.nodup_nodes

/-- The cyclic nodes are exactly those from which a path leads back, in declaration order. -/
theorem cyclic_exact (g : Graph ν) :
    (∀ v, v ∈ g.order.cyclic ↔ v ∈ g.nodes ∧ g.OnCycle v) ∧ g.order.cyclic.Nodup ∧
      g.order.cyclic.Sublist g.nodes := by
  refine ⟨fun v ↦ ?_, g.nodup_cyclic, g.cyclic_sublist⟩
  rw [mem_cyclic_iff]
  exact (and_iff_right_of_imp OnCycle.mem_nodes).symm

/-- The part of an order before the cyclic nodes. -/
def acyclic (g : Graph ν) : List ν := (g.components.filter fun c ↦ !g.isCycle c).flatten

theorem sorted_eq (g : Graph ν) : g.order.sorted = g.acyclic ++ g.order.cyclic := rfl

theorem mem_acyclic_iff : v ∈ g.acyclic ↔ v ∈ g.vertices ∧ ¬g.OnCycle v := by
  rw [acyclic, List.mem_flatten]
  constructor
  · rintro ⟨c, hc, hv⟩
    obtain ⟨hc, straight⟩ := List.mem_filter.1 hc
    refine ⟨mem_components_iff.1 (List.mem_flatten_of_mem hc hv), fun cycle ↦ ?_⟩
    rw [(isCycle_iff hc hv).2 cycle] at straight
    cases straight
  · rintro ⟨hv, straight⟩
    obtain ⟨c, hc, hv⟩ := exists_component hv
    refine ⟨c, List.mem_filter.2 ⟨hc, ?_⟩, hv⟩
    rw [Bool.not_eq_true', ← Bool.not_eq_true]
    exact mt (isCycle_iff hc hv).1 straight

theorem mem_sorted_iff : v ∈ g.order.sorted ↔ v ∈ g.vertices := by
  rw [sorted_eq, List.mem_append, mem_acyclic_iff, mem_cyclic_iff]
  by_cases cycle : g.OnCycle v
  · exact iff_of_true (.inr cycle) (mem_vertices_of_mem_nodes cycle.mem_nodes)
  · simp only [cycle, not_false_eq_true, and_true, or_false]

theorem nodup_sorted (g : Graph ν) : g.order.sorted.Nodup := by
  refine List.nodup_append.2 ⟨?_, g.nodup_cyclic, ?_⟩
  · exact List.filter_sublist.flatten.nodup (nodup_components g)
  · rintro v hv w hw rfl
    exact (mem_acyclic_iff.1 hv).2 (mem_cyclic_iff.1 hw)

/-- No path leads from a vertex outside cycles to a later one. -/
theorem pairwise_acyclic (g : Graph ν) : g.acyclic.Pairwise fun v w ↦ ¬g.Reaches v w := by
  refine List.pairwise_flatten.2 ⟨fun c hc ↦ ?_, ?_⟩
  · obtain ⟨hc, straight⟩ := List.mem_filter.1 hc
    match c with
    | [] => exact List.Pairwise.nil
    | [v] => exact List.pairwise_singleton _ _
    | _ :: _ :: _ => cases straight
  · exact (pairwise_components g).sublist List.filter_sublist

theorem idxOf_sorted_lt (edge : g.Edge v w) (hv : ¬g.OnCycle v) (hw : ¬g.OnCycle w) :
    g.order.sorted.idxOf w < g.order.sorted.idxOf v := by
  have memv : v ∈ g.acyclic :=
    mem_acyclic_iff.2 ⟨mem_vertices_of_mem_nodes edge.mem_nodes, hv⟩
  have memw : w ∈ g.acyclic := mem_acyclic_iff.2 ⟨mem_vertices_of_mem_targets edge, hw⟩
  rw [sorted_eq, List.idxOf_append_of_mem memv, List.idxOf_append_of_mem memw]
  have apart := List.pairwise_iff_getElem.1 (pairwise_acyclic g)
  have lv := List.idxOf_lt_length_iff.2 memv
  have lw := List.idxOf_lt_length_iff.2 memw
  by_contra le
  rcases Nat.lt_or_eq_of_le (Nat.not_lt.1 le) with lt | e
  · have later := apart _ _ lv lw lt
    rw [List.getElem_idxOf, List.getElem_idxOf] at later
    exact later (.single edge)
  · have same : v = w := (List.idxOf_inj memv).1 e
    exact hv (.single (same ▸ edge))

end FormRules.Graph
