import FormRules.Proofs.Graph.Component

/-!
# Runs of the search

A run is a sequence of steps, and every state on it leads to the same end. What holds at the start,
and is kept by every move and whenever a root is visited, holds of the finished search.
-/

namespace FormRules.Search

open Relation

variable {ν : Type} [DecidableEq ν] {g : Graph ν} {s s' : Search ν}

/-- A state is reached from another one by steps. -/
abbrev Runs (g : Graph ν) : Search ν → Search ν → Prop :=
  ReflTransGen fun s s' ↦ s.frames ≠ [] ∧ s.step g = s'

theorem finish_step (frames : s.frames ≠ []) : (s.step g).finish g = s.finish g := by
  rw [finish.eq_1 g s, if_neg frames]

theorem Runs.invariant (run : Runs g s s') (h : Invariant g s) : Invariant g s' := by
  induction run with
  | refl => exact h
  | tail _ step ih =>
    obtain ⟨frames, rfl⟩ := step
    exact ih.step frames

theorem Runs.finish_eq (run : Runs g s s') : s.finish g = s'.finish g := by
  induction run with
  | refl => rfl
  | tail _ step ih =>
    obtain ⟨frames, rfl⟩ := step
    rw [ih, finish_step frames]

theorem finish_eq_of_runs (run : Runs g s s') (frames : s'.frames = []) : s.finish g = s' := by
  rw [run.finish_eq, finish, if_pos frames]

variable {P : Search ν → Prop}

theorem Invariant.induction_finish (h : Invariant g s)
    (move : ∀ s s', Invariant g s → Move g s s' → P s → P s') (holds : P s) : P (s.finish g) := by
  fun_induction finish g s with
  | case1 s frames => exact holds
  | case2 s frames ih => exact ih (h.step frames) (move s _ h (h.move_step frames) holds)

/-- What holds at the start, and is kept by moves and visits, holds of the finished search. -/
theorem search_induction (g : Graph ν) (start : P start)
    (visit : ∀ s v, Idle g s → v ∈ g.vertices → v ∉ s.index.keys → P s → P (s.visit v))
    (move : ∀ s s', Invariant g s → Move g s s' → P s → P s') : P g.search := by
  suffices ∀ roots : List ν, (∀ v ∈ roots, v ∈ g.vertices) → ∀ s, Idle g s → P s →
      P (roots.foldl (explore g) s) from
    this g.nodes (fun _ ↦ Graph.mem_vertices_of_mem_nodes) _ idle_start start
  intro roots
  induction roots with
  | nil => exact fun _ _ _ holds ↦ holds
  | cons root roots ih =>
    intro known s idle holds
    rw [List.forall_mem_cons] at known
    refine ih known.2 _ (idle.explore known.1).1 ?_
    rw [explore]
    split
    · exact holds
    · next new =>
      rw [OrderedMap.contains_eq_true_iff] at new
      exact (idle.visit known.1 new idle.frames).induction_finish move
        (visit s root idle known.1 new holds)

end FormRules.Search
