import FormRules.Proofs.Graph.DepthFirst
import FormRules.Proofs.Graph.Order
import FormRules.Proofs.Graph.Run

/-!
# The evaluation order as a postorder

The search closes its frames in the order in which the plain depth-first traversal leaves vertices.
A vertex outside cycles is a component of its own, which is finished when its frame is closed, so
apart from the vertices on cycles the components come in postorder.
-/

namespace FormRules

open Relation

namespace Graph

variable {ν : Type} [DecidableEq ν] {g : Graph ν} {u v w : ν}

instance (g : Graph ν) : DecidablePred g.OnCycle := fun _ ↦ decidable_of_iff _ mem_cyclic_iff

/-- The vertices of a list that lie on no cycle. -/
def straight (g : Graph ν) (vertices : List ν) : List ν := vertices.filter fun v ↦ ¬g.OnCycle v

theorem straight_append (g : Graph ν) (vertices more : List ν) :
    g.straight (vertices ++ more) = g.straight vertices ++ g.straight more :=
  List.filter_append _ _

theorem straight_eq_nil {vertices : List ν} (h : ∀ v ∈ vertices, g.OnCycle v) :
    g.straight vertices = [] := by
  refine List.filter_eq_nil_iff.2 fun v hv kept ↦ ?_
  exact of_decide_eq_true kept (h v hv)

theorem straight_eq_self {vertices : List ν} (h : ∀ v ∈ vertices, ¬g.OnCycle v) :
    g.straight vertices = vertices :=
  List.filter_eq_self.2 fun v hv ↦ decide_eq_true (h v hv)

theorem OnCycle.of_reaches (h : g.OnCycle v) (there : g.Reaches u v) (back : g.Reaches v u) :
    g.OnCycle u :=
  (TransGen.trans_right there h).trans_left back

theorem cyclic_eq (g : Graph ν) : g.order.cyclic = g.nodes.filter fun v ↦ g.OnCycle v := by
  refine List.filter_congr fun v _ ↦ ?_
  exact decide_eq_decide.2 mem_cycles_iff

/-- The order before its cyclic nodes is what the components hold outside cycles. -/
theorem acyclic_eq_straight (g : Graph ν) : g.acyclic = g.straight g.components.flatten := by
  suffices ∀ cs : List (List ν), (∀ c ∈ cs, c ∈ g.components) →
      (cs.filter fun c ↦ !g.isCycle c).flatten = g.straight cs.flatten from
    this g.components fun _ h ↦ h
  intro cs
  induction cs with
  | nil => exact fun _ ↦ rfl
  | cons c cs ih =>
    intro known
    rw [List.forall_mem_cons] at known
    rw [List.filter_cons, List.flatten_cons, straight_append, ← ih known.2]
    cases cycle : g.isCycle c with
    | true =>
      rw [straight_eq_nil fun v hv ↦ (isCycle_iff known.1 hv).1 cycle]
      rfl
    | false =>
      rw [straight_eq_self fun v hv cyclic ↦ ?_]
      · rfl
      · rw [(isCycle_iff known.1 hv).2 cyclic] at cycle
        cases cycle

end Graph

namespace Search

variable {ν : Type} [DecidableEq ν] {g : Graph ν} {s : Search ν} {t : Traversal ν} {v w : ν}
  {next : Nat} {rest : List (ν × Nat)} {top below : List ν}

/-- A search and a traversal have come equally far: they have met the same vertices, and outside
cycles they have finished the same ones in the same order. -/
structure Agrees (g : Graph ν) (s : Search ν) (t : Traversal ν) : Prop where
  met : ∀ v, v ∈ s.index.keys ↔ v ∈ t.entered
  finished : g.straight s.finished = g.straight t.left

/-! ## Single steps -/

/-- A vertex that knows of a lower number than its own lies on a cycle: it leads down to a frame,
and all frames lead to it. -/
theorem Invariant.onCycle_of_lt (h : Invariant g s) (frames : s.frames = (v, next) :: rest)
    (lt : s.lowOf v < s.indexOf v) : g.OnCycle v := by
  obtain ⟨w, hw, attained, path⟩ := h.lows.attained v (h.mem_stack_of_frames frames)
  obtain ⟨f, framed, -, back⟩ := h.exists_framed hw
  have ne : v ≠ w := by
    rintro rfl
    omega
  exact Graph.onCycle_of_reaches path (back.trans (h.reaches_of_frames frames framed)) ne

/-- Of a component that is finished, only its root may lie outside cycles. -/
theorem Invariant.straight_component (h : Invariant g s) (frames : s.frames = (v, next) :: rest)
    (done : (g.targets v)[next]? = none) (stack : s.stack = top ++ v :: below)
    (root : s.lowOf v = s.indexOf v) :
    g.straight (top ++ [v]).reverse = g.straight [v] := by
  have strong := (h.settled_cut frames done stack root).strong (top ++ [v]).reverse
    (List.mem_append_right _ (List.mem_singleton.2 rfl))
  have mem : v ∈ (top ++ [v]).reverse := by simp
  by_cases cycle : g.OnCycle v
  · rw [Graph.straight_eq_nil, Graph.straight_eq_nil]
    · exact List.forall_mem_singleton.2 cycle
    · exact fun u hu ↦ cycle.of_reaches (strong u hu v mem) (strong v mem u hu)
  · have alone : top = [] := by
      refine List.eq_nil_iff_forall_not_mem.2 fun u hu ↦ cycle ?_
      have hu' : u ∈ (top ++ [v]).reverse := by simp [hu]
      have nodup := h.layout.nodup_stack
      rw [stack] at nodup
      have ne : v ≠ u := fun e ↦
        (List.nodup_append.1 nodup).2.2 u hu v List.mem_cons_self e.symm
      exact Graph.onCycle_of_reaches (strong v mem u hu') (strong u hu' v mem) ne
    rw [alone]
    rfl

/-- An edge to a vertex that has been met changes nothing that a traversal knows of. -/
theorem step_of_met (frames : s.frames = (v, next) :: rest)
    (edge : (g.targets v)[next]? = some w) (met : w ∈ s.index.keys) :
    (s.step g).frames = (v, next + 1) :: rest ∧ (s.step g).index = s.index ∧
      (s.step g).finished = s.finished := by
  rw [step_of_edge frames edge, if_neg (not_not.2 met)]
  split <;> exact ⟨rfl, rfl, rfl⟩

/-- When a frame is closed its vertex is finished, or it lies on a cycle. -/
theorem Invariant.step_of_done (h : Invariant g s) (frames : s.frames = (v, next) :: rest)
    (done : (g.targets v)[next]? = none) :
    (s.step g).frames = rest ∧ (s.step g).index = s.index ∧
      g.straight (s.step g).finished = g.straight (s.finished ++ [v]) := by
  have move := h.move_step (frames ▸ List.cons_ne_nil _ _)
  generalize s.step g = s' at move
  have same : ∀ {frame : ν × Nat} {others : List (ν × Nat)}, s.frames = frame :: others →
      frame = (v, next) ∧ others = rest := fun other ↦ List.cons.inj (other.symm.trans frames)
  cases move with
  | discover other edge | touch other edge | skip other edge =>
    obtain ⟨⟨⟩, rfl⟩ := same other
    cases done.symm.trans edge
  | retreat other _ lt =>
    obtain ⟨⟨⟩, rfl⟩ := same other
    have straight : g.straight [v] = [] :=
      Graph.straight_eq_nil (List.forall_mem_singleton.2 (h.onCycle_of_lt frames lt))
    refine ⟨rfl, rfl, ?_⟩
    rw [Graph.straight_append, straight, List.append_nil]
    rfl
  | finish other _ stack root =>
    obtain ⟨⟨⟩, rfl⟩ := same other
    refine ⟨rfl, rfl, ?_⟩
    rw [finished_cut, Graph.straight_append, Graph.straight_append,
      h.straight_component frames done stack root]

namespace Agrees

theorem of_met (h : Agrees g s t) (frames : s.frames = (v, next) :: rest)
    (edge : (g.targets v)[next]? = some w) (entered : w ∈ t.entered) :
    Agrees g (s.step g) t := by
  obtain ⟨-, index, finished⟩ := step_of_met frames edge ((h.met w).2 entered)
  refine ⟨fun u ↦ ?_, ?_⟩
  · rw [index, h.met]
  · rw [finished, h.finished]

theorem visit (h : Agrees g s t) (v : ν) : Agrees g (s.visit v) (t.enter v) where
  met u := by
    refine OrderedMap.mem_keys_insert.trans ?_
    rw [h.met]
    exact List.mem_cons.symm
  finished := h.finished

theorem of_new (h : Agrees g s t) (frames : s.frames = (v, next) :: rest)
    (edge : (g.targets v)[next]? = some w) (new : w ∉ t.entered) :
    (s.step g).frames = (w, 0) :: (v, next + 1) :: rest ∧ Agrees g (s.step g) (t.enter w) := by
  rw [step_of_edge frames edge, if_pos (mt (h.met w).1 new)]
  have advanced : Agrees g { s with frames := (v, next + 1) :: rest } t := ⟨h.met, h.finished⟩
  exact ⟨rfl, advanced.visit w⟩

theorem of_done (h : Agrees g s t) (invariant : Invariant g s)
    (frames : s.frames = (v, next) :: rest) (done : (g.targets v)[next]? = none) :
    Agrees g (s.step g) (t.leave v) := by
  obtain ⟨-, index, finished⟩ := invariant.step_of_done frames done
  refine ⟨fun u ↦ ?_, ?_⟩
  · rw [index]
    exact h.met u
  · rw [finished, Graph.straight_append, h.finished, ← Graph.straight_append]
    rfl

end Agrees

/-! ## Whole runs -/

theorem edge_of_drop {vertices : List ν} (left : (g.targets v).drop next = w :: vertices) :
    (g.targets v)[next]? = some w ∧ (g.targets v).drop (next + 1) = vertices := by
  constructor
  · rw [← Nat.add_zero next, ← List.getElem?_drop, left]
    rfl
  · rw [← List.tail_drop, left]
    rfl

/-- While the innermost frame follows its edges, the traversal goes through the same vertices. -/
theorem exists_runs (g : Graph ν) (t : Traversal ν) (vertices : List ν) :
    ∀ (s : Search ν) (v : ν) (next : Nat) (rest : List (ν × Nat)), Invariant g s →
      s.frames = (v, next) :: rest → (g.targets v).drop next = vertices → Agrees g s t →
        ∃ s' last, Runs g s s' ∧ s'.frames = (v, last) :: rest ∧
          (g.targets v)[last]? = none ∧ Agrees g s' (g.traverse t vertices).1 := by
  fun_induction g.traverse t vertices with
  | case1 t =>
    intro s v next rest _ frames left agrees
    refine ⟨s, next, .refl, frames, ?_, agrees⟩
    exact List.getElem?_eq_none_iff.2 (List.drop_eq_nil_iff.1 left)
  | case2 t w vertices entered ih =>
    intro s v next rest h frames left agrees
    obtain ⟨edge, left⟩ := edge_of_drop left
    have frames_ne : s.frames ≠ [] := frames ▸ List.cons_ne_nil _ _
    have advanced := (step_of_met frames edge ((agrees.met w).2 entered)).1
    obtain ⟨s', last, run, closing⟩ :=
      ih _ v _ rest (h.step frames_ne) advanced left (agrees.of_met frames edge entered)
    exact ⟨s', last, .head ⟨frames_ne, rfl⟩ run, closing⟩
  | case3 t w vertices new inner outer ih_inner ih_outer =>
    intro s v next rest h frames left agrees
    obtain ⟨edge, left⟩ := edge_of_drop left
    have frames_ne : s.frames ≠ [] := frames ▸ List.cons_ne_nil _ _
    obtain ⟨entering, agrees⟩ := agrees.of_new frames edge new
    -- The frame of `w` follows all its edges and is closed, and then that of `v` goes on.
    obtain ⟨s₁, last₁, run₁, frames₁, done₁, agrees₁⟩ :=
      ih_inner _ w 0 _ (h.step frames_ne) entering List.drop_zero agrees
    have h₁ := run₁.invariant (h.step frames_ne)
    have frames₁_ne : s₁.frames ≠ [] := frames₁ ▸ List.cons_ne_nil _ _
    obtain ⟨s₂, last₂, run₂, closing⟩ :=
      ih_outer _ v _ rest (h₁.step frames₁_ne) (h₁.step_of_done frames₁ done₁).1 left
        (agrees₁.of_done h₁ frames₁ done₁)
    exact ⟨s₂, last₂, .head ⟨frames_ne, rfl⟩ (run₁.trans (.head ⟨frames₁_ne, rfl⟩ run₂)), closing⟩

/-- A search that explores roots in turn goes as far as a traversal that goes through them. -/
theorem Agrees.foldl_explore {roots : List ν} (agrees : Agrees g s t) (idle : Idle g s)
    (known : ∀ v ∈ roots, v ∈ g.vertices) :
    Agrees g (roots.foldl (explore g) s) (g.traverse t roots).1 := by
  induction roots generalizing s t with
  | nil =>
    rw [Graph.traverse_nil]
    exact agrees
  | cons root roots ih =>
    rw [List.forall_mem_cons] at known
    have idle' := (idle.explore known.1).1
    rw [List.foldl_cons]
    by_cases entered : root ∈ t.entered
    · have met := OrderedMap.contains_eq_true_iff.2 ((agrees.met root).2 entered)
      rw [explore, if_pos met] at idle' ⊢
      rw [Graph.traverse_of_mem entered]
      exact ih agrees idle known.2
    · have new : root ∉ s.index.keys := mt (agrees.met root).1 entered
      obtain ⟨s', last, run, frames, done, agrees'⟩ :=
        exists_runs g (t.enter root) (g.targets root) (s.visit root) root 0 s.frames
          (idle.visit known.1 new idle.frames) rfl List.drop_zero (agrees.visit root)
      have h' := run.invariant (idle.visit known.1 new idle.frames)
      have frames_ne : s'.frames ≠ [] := frames ▸ List.cons_ne_nil _ _
      have ended : (s.visit root).finish g = s'.step g :=
        finish_eq_of_runs (run.tail ⟨frames_ne, rfl⟩)
          ((h'.step_of_done frames done).1.trans idle.frames)
      rw [explore, if_neg (mt OrderedMap.contains_eq_true_iff.1 new), ended] at idle' ⊢
      rw [Graph.traverse_of_notMem entered]
      exact ih (agrees'.of_done h' frames done) idle' known.2

end Search

namespace Graph

variable {ν : Type} [DecidableEq ν]

/-- The evaluation order is the order in which the depth-first traversal leaves the vertices, except
that those on cycles come last, in declaration order. -/
theorem sorted_eq_postorder (g : Graph ν) :
    g.order.sorted =
      (g.postorder.filter fun v ↦ ¬g.OnCycle v) ++ g.nodes.filter fun v ↦ g.OnCycle v := by
  have start : Search.Agrees g .start .start := ⟨fun _ ↦ Iff.rfl, rfl⟩
  have agrees : Search.Agrees g g.search (g.traverse .start g.nodes).1 :=
    start.foldl_explore Search.idle_start fun _ ↦ mem_vertices_of_mem_nodes
  rw [sorted_eq, cyclic_eq, acyclic_eq_straight]
  exact congrArg (· ++ _) agrees.finished

example : let g : Graph Nat := .ofList [(0, [1, 2]), (1, [0, 3]), (2, [3, 4])]
    g.postorder = [3, 1, 4, 2, 0] ∧ g.order.sorted = [3, 4, 2, 0, 1] :=
  ⟨by cbv, by decide +kernel⟩

end Graph

end FormRules
