import FormRules.Graph.Basic
import Mathlib.Data.Finset.Card
import Mathlib.Data.Finset.Dedup

/-!
# Depth-first traversal

The plain recursion over a graph: vertices are entered in turn, and one that has been entered is
left when all that its edges lead to has been gone through. No vertex is entered twice. The
recursion ends because a vertex that is entered is a declared node less to enter or has no edges.
-/

namespace FormRules

/-- How far a traversal has come. -/
structure Traversal (ν : Type) where
  entered : List ν
  /-- The vertices that have been left, in the order in which that happened. -/
  left : List ν

namespace Traversal

variable {ν : Type}

def start : Traversal ν := ⟨[], []⟩

def enter (t : Traversal ν) (v : ν) : Traversal ν := { t with entered := v :: t.entered }

def leave (t : Traversal ν) (v : ν) : Traversal ν := { t with left := t.left ++ [v] }

/-- A traversal that has come at least as far. -/
abbrev Later (t : Traversal ν) := { later : Traversal ν // t.entered ⊆ later.entered }

variable [DecidableEq ν] {t later : Traversal ν} {v : ν}

/-- The declared nodes that are still to be entered. -/
def remaining (t : Traversal ν) (g : Graph ν) : Finset ν :=
  g.nodes.toFinset \ t.entered.toFinset

theorem mem_remaining_iff {g : Graph ν} : v ∈ t.remaining g ↔ v ∈ g.nodes ∧ v ∉ t.entered := by
  rw [remaining, Finset.mem_sdiff, List.mem_toFinset, List.mem_toFinset]

theorem remaining_subset (g : Graph ν) (h : t.entered ⊆ later.entered) :
    later.remaining g ⊆ t.remaining g := by
  intro v hv
  rw [mem_remaining_iff] at hv ⊢
  exact ⟨hv.1, fun entered ↦ hv.2 (h entered)⟩

theorem card_remaining_enter_lt {g : Graph ν} (declared : v ∈ g.nodes) (new : v ∉ t.entered) :
    ((t.enter v).remaining g).card < (t.remaining g).card := by
  refine Finset.card_lt_card ⟨remaining_subset g (List.subset_cons_self v _), fun all ↦ ?_⟩
  have remains := all (mem_remaining_iff.2 ⟨declared, new⟩)
  exact (mem_remaining_iff.1 remains).2 List.mem_cons_self

end Traversal

namespace Graph

variable {ν : Type} [DecidableEq ν]

/-- Goes through vertices in turn. -/
def traverse (g : Graph ν) (t : Traversal ν) (vertices : List ν) : t.Later :=
  match vertices with
  | [] => ⟨t, List.Subset.refl _⟩
  | v :: rest =>
    if v ∈ t.entered then g.traverse t rest
    else
      let inner := g.traverse (t.enter v) (g.targets v)
      let outer := g.traverse (inner.1.leave v) rest
      ⟨outer.1, fun _ h ↦ outer.2 (inner.2 (List.mem_cons_of_mem v h))⟩
termination_by ((t.remaining g).card, vertices.length)
decreasing_by
  · exact Prod.Lex.right _ (Nat.lt_succ_self _)
  · rename_i new
    by_cases declared : v ∈ g.nodes
    · exact Prod.Lex.left _ _ (Traversal.card_remaining_enter_lt declared new)
    · rw [targets_eq_nil declared]
      refine Prod.Lex.right' _ (Finset.card_le_card ?_) (Nat.succ_pos _)
      exact Traversal.remaining_subset g (List.subset_cons_self v _)
  · refine Prod.Lex.right' _ (Finset.card_le_card ?_) (Nat.lt_succ_self _)
    exact Traversal.remaining_subset g fun _ h ↦ inner.2 (List.mem_cons_of_mem v h)

theorem traverse_nil (g : Graph ν) (t : Traversal ν) : (g.traverse t []).1 = t := by
  rw [traverse]

theorem traverse_of_mem {g : Graph ν} {t : Traversal ν} {v : ν} (h : v ∈ t.entered)
    (rest : List ν) : (g.traverse t (v :: rest)).1 = (g.traverse t rest).1 := by
  rw [traverse, if_pos h]

theorem traverse_of_notMem {g : Graph ν} {t : Traversal ν} {v : ν} (h : v ∉ t.entered)
    (rest : List ν) : (g.traverse t (v :: rest)).1 =
      (g.traverse ((g.traverse (t.enter v) (g.targets v)).1.leave v) rest).1 := by
  rw [traverse, if_neg h]

/-- The vertices in the order in which a traversal from the declared nodes leaves them. -/
def postorder (g : Graph ν) : List ν := (g.traverse .start g.nodes).1.left

end Graph

end FormRules
