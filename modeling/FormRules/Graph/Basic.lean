import FormRules.Keyed.OrderedMap

/-!
# Directed graphs

A graph declares nodes in an order and gives each a list of targets. A target need not be declared,
and then has no edges of its own.
-/

namespace FormRules

/-- The targets of every declared node. -/
structure Graph (ν : Type) where
  edges : OrderedMap ν (List ν)

namespace Graph

variable {ν : Type} [DecidableEq ν]

/-- The graph of a list of nodes with their targets, in which a later list of a node takes the place
of an earlier one and repeated targets count once. -/
def ofList (edges : List (ν × List ν)) : Graph ν :=
  ⟨.ofList (edges.map fun edge ↦ (edge.1, edge.2.eraseDups))⟩

def nodes (g : Graph ν) : List ν := g.edges.keys

def targets (g : Graph ν) (v : ν) : List ν := (g.edges.get? v).getD []

def hasEdge (g : Graph ν) (v w : ν) : Bool := w ∈ g.targets v

/-- The declared nodes and all targets. -/
def vertices (g : Graph ν) : List ν := g.nodes ++ g.nodes.flatMap g.targets

theorem mem_vertices_of_mem_nodes {g : Graph ν} {v : ν} (h : v ∈ g.nodes) : v ∈ g.vertices :=
  List.mem_append_left _ h

theorem targets_eq_nil {g : Graph ν} {v : ν} (h : v ∉ g.nodes) : g.targets v = [] := by
  have : g.edges.get? v = none := by
    rw [← Option.not_isSome_iff_eq_none]
    exact fun some ↦ h (OrderedMap.contains_eq_true_iff.1 some)
  rw [targets, this]
  rfl

theorem mem_vertices_of_mem_targets {g : Graph ν} {v w : ν} (h : w ∈ g.targets v) :
    w ∈ g.vertices := by
  by_cases m : v ∈ g.nodes
  · exact List.mem_append_right _ (List.mem_flatMap.2 ⟨v, m, h⟩)
  · rw [targets_eq_nil m] at h
    cases h

end Graph

end FormRules
