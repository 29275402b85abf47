import FormRules.Graph.Order
import Mathlib.Logic.Relation
import Mathlib.Tactic.Common

/-!
# Paths in a graph

A path is a chain of edges. A vertex lies on a cycle if a path of one or more edges leads from it
back to it. A set of vertices that no edge leaves is left by no path either.
-/

namespace FormRules.Graph

open Relation

variable {ν : Type} [DecidableEq ν] {g : Graph ν} {v w : ν}

def Edge (g : Graph ν) (v w : ν) : Prop := w ∈ g.targets v

abbrev Reaches (g : Graph ν) : ν → ν → Prop := ReflTransGen g.Edge

def OnCycle (g : Graph ν) (v : ν) : Prop := TransGen g.Edge v v

theorem hasEdge_eq_true_iff : g.hasEdge v w = true ↔ g.Edge v w := by
  simp [hasEdge, Edge]

theorem Edge.mem_nodes (h : g.Edge v w) : v ∈ g.nodes := by
  by_contra undeclared
  rw [Edge, targets_eq_nil undeclared] at h
  cases h

theorem mem_vertices_iff : v ∈ g.vertices ↔ v ∈ g.nodes ∨ ∃ u ∈ g.nodes, g.Edge u v := by
  rw [vertices, List.mem_append, List.mem_flatMap]
  rfl

omit [DecidableEq ν] in
theorem nodup_nodes (g : Graph ν) : g.nodes.Nodup := g.edges.nodup_keys

theorem OnCycle.exists_edge (h : g.OnCycle v) : ∃ w, g.Edge v w ∧ g.Reaches w v :=
  TransGen.head'_iff.1 h

theorem OnCycle.mem_nodes (h : g.OnCycle v) : v ∈ g.nodes := by
  obtain ⟨w, edge, -⟩ := h.exists_edge
  exact edge.mem_nodes

/-- Two vertices that reach each other lie on a cycle, unless they are one vertex. -/
theorem onCycle_of_reaches (there : g.Reaches v w) (back : g.Reaches w v) (h : v ≠ w) :
    g.OnCycle v := by
  rcases reflTransGen_iff_eq_or_transGen.1 there with e | there
  · exact absurd e.symm h
  · exact there.trans_left back

theorem Reaches.mem_of_closed {S : List ν} (closed : ∀ u ∈ S, ∀ x, g.Edge u x → x ∈ S)
    (h : g.Reaches v w) (hv : v ∈ S) : w ∈ S := by
  induction h with
  | refl => exact hv
  | tail _ edge ih => exact closed _ ih _ edge

end FormRules.Graph
