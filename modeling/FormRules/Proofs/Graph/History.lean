import FormRules.Proofs.Graph.Postorder
import FormRules.Proofs.Graph.Round

/-!
# The history of the search

Every vertex is visited once and every edge is followed once. What has happened so far can be read
off a state: the vertices that have a number have been visited, and of a vertex with a frame the
edges before the place of that frame have been followed, of any other vertex that has been met all
of them. No round does again what has happened.
-/

namespace FormRules

namespace Search

variable {ν : Type} [DecidableEq ν] {g : Graph ν} {s s' s'' : Search ν} {v w : ν} {next : Nat}
  {rest : List (ν × Nat)} {new new' : List (Event ν)}

/-- What has happened before a state is reached. -/
def Event.Happened (g : Graph ν) (s : Search ν) : Event ν → Prop
  | .visit v => v ∈ s.index.keys
  | .follow v place => v ∈ s.index.keys ∧ place < (g.targets v).length ∧
    ∀ next, (v, next) ∈ s.frames → place < next

/-- From one state to another, certain events happen for the first time and once each, and no others
do. -/
structure Adds (g : Graph ν) (s s' : Search ν) (new : List (Event ν)) : Prop where
  nodup : new.Nodup
  fresh : ∀ event ∈ new, ¬event.Happened g s
  happened : ∀ event : Event ν, event.Happened g s' ↔ event.Happened g s ∨ event ∈ new

namespace Adds

theorem refl (g : Graph ν) (s : Search ν) : Adds g s s [] where
  nodup := List.nodup_nil
  fresh _ listed := absurd listed List.not_mem_nil
  happened event := by rw [or_iff_left List.not_mem_nil]

theorem trans (h : Adds g s s' new) (h' : Adds g s' s'' new') : Adds g s s'' (new ++ new') where
  nodup := by
    refine List.nodup_append.mpr ⟨h.nodup, h'.nodup, ?_⟩
    rintro event before _ after rfl
    exact h'.fresh event after ((h.happened event).mpr (.inr before))
  fresh event listed := by
    rcases List.mem_append.mp listed with before | after
    · exact h.fresh event before
    · exact fun happened ↦ h'.fresh event after ((h.happened event).mpr (.inl happened))
  happened event := by rw [h'.happened, h.happened, List.mem_append, or_assoc]

/-- What has happened depends on the numbers and the frames alone. -/
theorem congr (h : Adds g s s' new) (index : s''.index = s'.index)
    (frames : s''.frames = s'.frames) : Adds g s s'' new where
  nodup := h.nodup
  fresh := h.fresh
  happened event := by
    rw [← h.happened]
    cases event with
    | visit v => rw [Event.Happened, Event.Happened, index]
    | follow v place => rw [Event.Happened, Event.Happened, index, frames]

/-! ## Single operations -/

theorem visit (g : Graph ν) (unmet : v ∉ s.index.keys) : Adds g s (s.visit v) [.visit v] where
  nodup := List.pairwise_singleton _ _
  fresh event listed := by
    rw [List.mem_singleton.mp listed]
    exact unmet
  happened event := by
    have keys : ∀ u, u ∈ (s.visit v).index.keys ↔ u ∈ s.index.keys ∨ u = v := fun u ↦
      OrderedMap.mem_keys_insert.trans or_comm
    rw [List.mem_singleton]
    cases event with
    | visit u => rw [Event.Happened, Event.Happened, keys, Event.visit.injEq]
    | follow u place =>
      simp only [Event.Happened, keys, reduceCtorEq, or_false]
      constructor
      · rintro ⟨met, small, passed⟩
        -- Of the vertex that is visited no edge has been followed.
        have other : u ≠ v := by
          rintro rfl
          exact Nat.not_lt_zero place (passed 0 List.mem_cons_self)
        exact ⟨met.resolve_right other, small, fun n framed ↦ passed n (.tail _ framed)⟩
      · rintro ⟨met, small, passed⟩
        refine ⟨.inl met, small, fun n framed ↦ ?_⟩
        rcases List.mem_cons.mp framed with same | framed
        · cases same
          exact absurd met unmet
        · exact passed n framed

theorem advance (met : v ∈ s.index.keys) (frames : s.frames = (v, next) :: rest)
    (alone : v ∉ rest.map Prod.fst) (edge : (g.targets v)[next]? = some w) :
    Adds g s { s with frames := (v, next + 1) :: rest } [.follow v next] where
  nodup := List.pairwise_singleton _ _
  fresh event listed := by
    rw [List.mem_singleton.mp listed]
    rintro ⟨-, -, passed⟩
    exact Nat.lt_irrefl next (passed next (frames ▸ List.mem_cons_self))
  happened event := by
    rw [List.mem_singleton]
    cases event with
    | visit u => simp [Event.Happened]
    | follow u place =>
      simp only [Event.Happened, Event.follow.injEq, frames]
      by_cases own : u = v
      · subst own
        have unframed : ∀ n, (u, n) ∉ rest := fun n framed ↦ alone (List.mem_map_of_mem framed)
        have inside : next < (g.targets u).length := (List.getElem?_eq_some_iff.mp edge).1
        simp only [List.mem_cons, Prod.mk.injEq, true_and, unframed, or_false, forall_eq, met]
        omega
      · simp [own]

theorem close (frames : s.frames = (v, next) :: rest) (done : (g.targets v)[next]? = none) :
    Adds g s { s with frames := rest } [] where
  nodup := List.nodup_nil
  fresh _ listed := absurd listed List.not_mem_nil
  happened event := by
    rw [or_iff_left List.not_mem_nil]
    cases event with
    | visit u => rfl
    | follow u place =>
      have all : (g.targets v).length ≤ next := List.getElem?_eq_none_iff.mp done
      simp only [Event.Happened, frames]
      refine and_congr_right fun _ ↦ and_congr_right fun small ↦ ⟨fun passed n framed ↦ ?_,
        fun passed n framed ↦ passed n (.tail _ framed)⟩
      rcases List.mem_cons.mp framed with same | framed
      · cases same
        exact Nat.lt_of_lt_of_le small all
      · exact passed n framed

end Adds

/-! ## Rounds -/

theorem Invariant.alone (h : Invariant g s) (frames : s.frames = (v, next) :: rest) :
    v ∉ rest.map Prod.fst := by
  have nodup := h.layout.nodup_stack.sublist h.layout.framed
  rw [framed, frames] at nodup
  exact (List.nodup_cons.mp nodup).1

theorem events_of_edge (frames : s.frames = (v, next) :: rest)
    (edge : (g.targets v)[next]? = some w) : s.events g =
      if w ∈ s.index.keys then [.follow v next] else [.follow v next, .visit w] := by
  simp only [events, frames, edge, OrderedMap.contains_eq_true_iff]

theorem events_of_done (frames : s.frames = (v, next) :: rest)
    (done : (g.targets v)[next]? = none) : s.events g = [] := by
  simp only [events, frames, done]

theorem Invariant.adds_step (h : Invariant g s) (frames : s.frames ≠ []) :
    Adds g s (s.step g) (s.events g) := by
  have move := h.move_step frames
  generalize s.step g = s' at move
  cases move with
  | discover frames edge unmet =>
    have met := (h.layout.mem_index _).mpr (.inl (h.mem_stack_of_frames frames))
    rw [events_of_edge frames edge, if_neg unmet]
    exact (Adds.advance met frames (h.alone frames) edge).trans (Adds.visit g unmet)
  | touch frames edge target =>
    have met := (h.layout.mem_index _).mpr (.inl (h.mem_stack_of_frames frames))
    rw [events_of_edge frames edge, if_pos ((h.layout.mem_index _).mpr (.inl target))]
    exact (Adds.advance met frames (h.alone frames) edge).congr rfl rfl
  | skip frames edge target =>
    have met := (h.layout.mem_index _).mpr (.inl (h.mem_stack_of_frames frames))
    rw [events_of_edge frames edge, if_pos ((h.layout.mem_index _).mpr (.inr target))]
    exact Adds.advance met frames (h.alone frames) edge
  | retreat frames done _ =>
    rw [events_of_done frames done]
    exact (Adds.close frames done).congr rfl rfl
  | finish frames done _ _ =>
    rw [events_of_done frames done]
    exact (Adds.close frames done).congr rfl rfl

/-- What a round does to the frames, and the events that it is written down as. -/
inductive Recorded (g : Graph ν) (s : Search ν) : List (Event ν) → Prop
  /-- No edge is left, and the innermost frame is closed. -/
  | close {v : ν} {next : Nat} {rest : List (ν × Nat)} :
    s.frames = (v, next) :: rest → (g.targets v)[next]? = none → (s.step g).frames = rest →
      (s.step g).index = s.index → Recorded g s []
  /-- The next edge leads to a vertex that has been met. -/
  | pass {v w : ν} {next : Nat} {rest : List (ν × Nat)} :
    s.frames = (v, next) :: rest → (g.targets v)[next]? = some w → w ∈ s.index.keys →
      (s.step g).frames = (v, next + 1) :: rest → (s.step g).index = s.index →
        Recorded g s [.follow v next]
  /-- The next edge leads to a vertex that is visited now. -/
  | enter {v w : ν} {next : Nat} {rest : List (ν × Nat)} :
    s.frames = (v, next) :: rest → (g.targets v)[next]? = some w → w ∉ s.index.keys →
      s.step g = visit { s with frames := (v, next + 1) :: rest } w →
        Recorded g s [.follow v next, .visit w]

theorem Invariant.recorded (h : Invariant g s) (frames : s.frames ≠ []) :
    Recorded g s (s.events g) := by
  obtain ⟨⟨v, next⟩, rest, frames⟩ := List.exists_cons_of_ne_nil frames
  cases edge : (g.targets v)[next]? with
  | none =>
    obtain ⟨closed, index, -⟩ := h.step_of_done frames edge
    rw [events_of_done frames edge]
    exact .close frames edge closed index
  | some w =>
    rw [events_of_edge frames edge]
    by_cases met : w ∈ s.index.keys
    · obtain ⟨passed, index, -⟩ := step_of_met frames edge met
      rw [if_pos met]
      exact .pass frames edge met passed index
    · rw [if_neg met]
      refine .enter frames edge met ?_
      rw [step_of_edge frames edge, if_pos met]

theorem Invariant.adds_finish (h : Invariant g s) :
    Adds g s (s.finish g) ((s.rounds g).flatMap (events g)) := by
  fun_induction finish g s with
  | case1 s frames =>
    rw [rounds, if_pos frames]
    exact .refl g s
  | case2 s frames ih =>
    rw [rounds_of_frames frames, List.flatMap_cons]
    exact (h.adds_step frames).trans (ih (h.step frames))

theorem Idle.adds_explorations (h : Idle g s) {roots : List ν}
    (known : ∀ v ∈ roots, v ∈ g.vertices) :
    Adds g s (roots.foldl (Search.explore g) s) ((explorations g s roots).flatMap fun exploration ↦
      .visit exploration.1 :: (exploration.2.rounds g).flatMap (events g)) := by
  induction roots generalizing s with
  | nil => exact .refl g s
  | cons root roots ih =>
    rw [List.forall_mem_cons] at known
    rw [explorations, List.flatMap_append]
    refine Adds.trans ?_ (ih (h.explore known.1).1 known.2)
    rw [Search.explore]
    split
    · exact .refl g s
    · next new =>
      have unmet := mt OrderedMap.contains_eq_true_iff.mpr new
      have rounds := (h.visit known.1 unmet h.frames).adds_finish
      rw [List.flatMap_cons, List.flatMap_nil, List.append_nil]
      exact (Adds.visit g unmet).trans rounds

end Search

namespace Graph

open Search

variable {ν : Type} [DecidableEq ν] {g : Graph ν}

theorem adds_history (g : Graph ν) : Adds g .start g.search g.history :=
  idle_start.adds_explorations fun _ ↦ mem_vertices_of_mem_nodes

theorem mem_history_iff {event : Event ν} :
    event ∈ g.history ↔ event.Happened g g.search := by
  have nothing : ¬event.Happened g .start := by
    cases event with
    | visit v => exact List.not_mem_nil
    | follow v place => exact fun happened ↦ absurd happened.1 List.not_mem_nil
  rw [g.adds_history.happened, or_iff_right nothing]

theorem visit_mem_history_iff {v : ν} : .visit v ∈ g.history ↔ v ∈ g.vertices := by
  rw [mem_history_iff, ← mem_components_iff, ← mem_index_search]
  rfl

theorem follow_mem_history_iff {v : ν} {place : Nat} :
    .follow v place ∈ g.history ↔ place < (g.targets v).length := by
  rw [mem_history_iff, Event.Happened, (idle_search g).frames]
  constructor
  · exact fun happened ↦ happened.2.1
  · intro inside
    have declared : v ∈ g.nodes :=
      Edge.mem_nodes (List.getElem_mem inside : g.Edge v (g.targets v)[place])
    have met := mem_index_search.mpr (mem_components_iff.mpr (mem_vertices_of_mem_nodes declared))
    exact ⟨met, inside, fun _ framed ↦ absurd framed List.not_mem_nil⟩

/-- Whatever state a search is in, after finitely many rounds no frame is left. Over a whole search
every vertex is visited once and every edge is followed once. In each round the stack and its record
agree, frames stand on the stack, all numbers that are looked up are there and a root is met. -/
theorem search_ends_safely (g : Graph ν) :
    (∀ s : Search ν, ∃ n ≤ s.cost g,
      s.rounds g = (List.range n).map (fun k ↦ (Search.step g)^[k] s) ∧
      (Search.step g)^[n] s = s.finish g ∧ (s.finish g).frames = []) ∧
    (g.history.Nodup ∧
      (∀ v, .visit v ∈ g.history ↔ v ∈ g.nodes ∨ ∃ u ∈ g.nodes, v ∈ g.targets u) ∧
      ∀ v place, .follow v place ∈ g.history ↔ place < (g.targets v).length) ∧
    (∀ s ∈ g.rounds, Recorded g s (s.events g) ∧ Safe g s) ∧ [] ∉ g.components := by
  refine ⟨fun s ↦ ?_, ⟨g.adds_history.nodup, fun v ↦ ?_, fun v place ↦ follow_mem_history_iff⟩,
    fun s round ↦ ?_, g.nil_notMem_components⟩
  · obtain ⟨n, le, rounds_eq, ends⟩ := exists_rounds_eq g s
    exact ⟨n, le, rounds_eq, ends, frames_finish g s⟩
  · rw [visit_mem_history_iff, mem_vertices_iff]
    rfl
  · obtain ⟨invariant, frames⟩ := invariant_of_mem_rounds round
    exact ⟨invariant.recorded frames, invariant.safe⟩

/-- The last round of two circles that share a vertex. The target that is not declared has left the
stack, and all the rest leaves it with the root. -/
theorem search_ends_safely_of_joined_circles :
    let g : Graph Nat := .ofList [(0, [1]), (1, [2, 0]), (2, [1, 3])]
    ∃ s ∈ g.rounds, s.frames = [(0, 1)] ∧ s.stack = [2, 1, 0] ∧ s.components = [[3]] ∧
      s.lowOf 0 = s.indexOf 0 ∧ Recorded g s (s.events g) ∧ Safe g s ∧
      (s.step g).components = [[3], [0, 1, 2]] := by
  intro g
  have last : ∃ s ∈ g.rounds, (s.frames = [(0, 1)] ∧ s.stack = [2, 1, 0] ∧ s.components = [[3]] ∧
      s.lowOf 0 = s.indexOf 0) ∧ (s.step g).components = [[3], [0, 1, 2]] := by decide +kernel
  obtain ⟨s, round, ⟨frames, stack, components, root⟩, finished⟩ := last
  obtain ⟨recorded, safe⟩ := g.search_ends_safely.2.2.1 s round
  exact ⟨s, round, frames, stack, components, root, recorded, safe, finished⟩

end Graph

end FormRules
