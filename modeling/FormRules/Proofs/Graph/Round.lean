import FormRules.Proofs.Graph.Condensation
import Mathlib.Logic.Function.Iterate

/-!
# Rounds of the search

The search explores one root after another, and each exploration is a loop over steps. The states in
which its rounds begin are listed here, together with what the rounds do: which edges they follow
and which vertices they visit. In every round all numbers that are looked up are there, and a root
that is due to leave the stack stands on it.
-/

namespace FormRules

namespace Search

variable {ν : Type} [DecidableEq ν] {g : Graph ν} {s s' : Search ν} {v w : ν}

/-- The rounds of the loop from a state on, each as the state in which it begins. -/
def rounds (g : Graph ν) (s : Search ν) : List (Search ν) :=
  if s.frames = [] then [] else s :: rounds g (s.step g)
termination_by s.cost g
decreasing_by exact cost_step_lt ‹_›

/-- The explorations of those roots that have not been met before, each as its root and the state in
which the root has just been visited. -/
def explorations (g : Graph ν) : Search ν → List ν → List (ν × Search ν)
  | _, [] => []
  | s, root :: roots =>
    (if s.index.contains root then [] else [(root, s.visit root)]) ++
      explorations g (s.explore g root) roots

inductive Event (ν : Type) where
  | visit (v : ν)
  /-- The search goes past the edge of a vertex that has so many edges before it. -/
  | follow (v : ν) (place : Nat)
deriving DecidableEq

/-- What a round does. -/
def events (g : Graph ν) (s : Search ν) : List (Event ν) :=
  match s.frames with
  | [] => []
  | (v, next) :: _ =>
    match (g.targets v)[next]? with
    | some w => if s.index.contains w then [.follow v next] else [.follow v next, .visit w]
    | none => []

/-! ## The loop ends -/

theorem rounds_of_frames (frames : s.frames ≠ []) : s.rounds g = s :: (s.step g).rounds g := by
  rw [rounds, if_neg frames]

theorem frames_finish (g : Graph ν) (s : Search ν) : (s.finish g).frames = [] := by
  fun_induction finish g s with
  | case1 s frames => exact frames
  | case2 s frames ih => exact ih

/-- The rounds are the iterates of the step, of which there are no more than the cost of the state,
and after them no frame is left. -/
theorem exists_rounds_eq (g : Graph ν) (s : Search ν) : ∃ n ≤ s.cost g,
    s.rounds g = (List.range n).map (fun k ↦ (step g)^[k] s) ∧ (step g)^[n] s = s.finish g := by
  fun_induction rounds g s with
  | case1 s frames => exact ⟨0, Nat.zero_le _, rfl, by rw [finish, if_pos frames]; rfl⟩
  | case2 s frames ih =>
    obtain ⟨n, le, rounds_eq, ends⟩ := ih
    refine ⟨n + 1, Nat.lt_of_le_of_lt le (cost_step_lt frames), ?_, ?_⟩
    · rw [rounds_eq, List.range_succ_eq_map, List.map_cons, List.map_map]
      rfl
    · rw [Function.iterate_succ_apply, ends, finish_step frames]

theorem runs_of_mem_rounds (h : s' ∈ s.rounds g) : Runs g s s' ∧ s'.frames ≠ [] := by
  fun_induction rounds g s with
  | case1 s frames => cases h
  | case2 s frames ih =>
    rcases List.mem_cons.mp h with rfl | later
    · exact ⟨.refl, frames⟩
    · obtain ⟨run, frames'⟩ := ih later
      exact ⟨.head ⟨frames, rfl⟩ run, frames'⟩

theorem Idle.invariant_of_mem_explorations {roots : List ν} (h : Idle g s)
    (known : ∀ v ∈ roots, v ∈ g.vertices) {exploration : ν × Search ν}
    (listed : exploration ∈ explorations g s roots) : Invariant g exploration.2 := by
  induction roots generalizing s with
  | nil => cases listed
  | cons root roots ih =>
    rw [List.forall_mem_cons] at known
    rw [explorations, List.mem_append] at listed
    rcases listed with first | later
    · obtain ⟨new, first⟩ := List.mem_ite_nil_left.mp first
      rw [List.mem_singleton.mp first]
      exact h.visit known.1 (mt OrderedMap.contains_eq_true_iff.mpr new) h.frames
    · exact ih (h.explore known.1).1 known.2 later

/-! ## Every round finds what it looks for -/

/-- What a round of the loop relies on. -/
structure Safe (g : Graph ν) (s : Search ν) : Prop where
  stacked : ∀ v, v ∈ s.onStack ↔ v ∈ s.stack
  framed : ∀ v ∈ s.framed, v ∈ s.stack
  low_found : ∀ v ∈ s.framed, ∃ number, s.low.get? v = some number
  index_found : ∀ v, v ∈ s.framed ∨ v ∈ s.onStack → ∃ number, s.index.get? v = some number
  /-- A root that has no edges left is met on the stack, and with what stands above it makes up the
  component that is finished. -/
  root_met : ∀ v next rest, s.frames = (v, next) :: rest → (g.targets v)[next]? = none →
    s.lowOf v = s.indexOf v → ∃ top below, s.stack = top ++ v :: below ∧
      popThrough v s.stack = (top ++ [v], below) ∧
      (s.step g).components = s.components ++ [v :: top.reverse]

theorem Invariant.safe (h : Invariant g s) : Safe g s where
  stacked v := by rw [h.layout.onStack]
  framed v := h.layout.mem_stack_of_framed
  low_found v framed := by
    have stacked := h.layout.mem_stack_of_framed framed
    exact OrderedMap.mem_keys_iff.mp
      ((h.layout.mem_low v).mpr ((h.layout.mem_index v).mpr (.inl stacked)))
  index_found v looked := by
    have stacked : v ∈ s.stack :=
      looked.elim h.layout.mem_stack_of_framed (h.layout.onStack ▸ ·)
    exact OrderedMap.mem_keys_iff.mp ((h.layout.mem_index v).mpr (.inl stacked))
  root_met v next rest frames done root := by
    have move := h.move_step (frames ▸ List.cons_ne_nil _ _)
    generalize s.step g = s' at move ⊢
    cases move with
    | discover other edge | touch other edge | skip other edge =>
      cases frames.symm.trans other
      cases done.symm.trans edge
    | retreat other _ lt =>
      cases frames.symm.trans other
      exact absurd root (Nat.ne_of_lt lt)
    | @finish _ _ _ top below other _ stack _ =>
      cases frames.symm.trans other
      have nodup := h.layout.nodup_stack
      rw [stack] at nodup
      have above : v ∉ top := fun member ↦
        (List.nodup_append.mp nodup).2.2 v member v List.mem_cons_self rfl
      exact ⟨top, below, stack, by rw [stack, popThrough_append above],
        by rw [Search.cut, List.reverse_append]; rfl⟩

end Search

namespace Graph

open Search

variable {ν : Type} [DecidableEq ν] {g : Graph ν} {s : Search ν}

/-- The explorations of a search from the declared nodes. -/
def explorations (g : Graph ν) : List (ν × Search ν) := Search.explorations g .start g.nodes

/-- All rounds of a search. -/
def rounds (g : Graph ν) : List (Search ν) :=
  g.explorations.flatMap fun exploration ↦ exploration.2.rounds g

/-- Everything that a search does: each exploration visits its root and goes through its rounds. -/
def history (g : Graph ν) : List (Event ν) :=
  g.explorations.flatMap fun exploration ↦
    .visit exploration.1 :: (exploration.2.rounds g).flatMap (Search.events g)

theorem invariant_of_mem_rounds (h : s ∈ g.rounds) : Invariant g s ∧ s.frames ≠ [] := by
  obtain ⟨exploration, listed, round⟩ := List.mem_flatMap.mp h
  have begun := idle_start.invariant_of_mem_explorations (fun _ ↦ mem_vertices_of_mem_nodes) listed
  obtain ⟨run, frames⟩ := runs_of_mem_rounds round
  exact ⟨run.invariant begun, frames⟩

end Graph

end FormRules
