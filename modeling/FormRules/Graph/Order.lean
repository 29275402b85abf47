import FormRules.Graph.Search

/-!
# Evaluation order

The vertices of a graph, each after its targets. Where edges run in a circle no such order exists,
and the nodes concerned come last.
-/

namespace FormRules

structure Order (ν : Type) where
  sorted : List ν
  /-- The declared nodes on cycles in declaration order, which are also the last ones above. -/
  cyclic : List ν
deriving DecidableEq, Repr

namespace Order

variable {ν : Type} [DecidableEq ν]

def isCyclic (order : Order ν) (v : ν) : Bool := v ∈ order.cyclic

end Order

namespace Graph

variable {ν : Type} [DecidableEq ν]

/-- Whether the vertices of a component lie on cycles. -/
def isCycle (g : Graph ν) : List ν → Bool
  | [v] => g.hasEdge v v
  | _ => true

def order (g : Graph ν) : Order ν :=
  let cycles := (g.components.filter g.isCycle).flatten
  let cyclic := g.nodes.filter (· ∈ cycles)
  ⟨(g.components.filter fun c ↦ !g.isCycle c).flatten ++ cyclic, cyclic⟩

end Graph

end FormRules
