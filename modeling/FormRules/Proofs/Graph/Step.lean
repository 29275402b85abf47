import FormRules.Proofs.Graph.Preservation

/-!
# Steps of the search

A step is one of five moves, and each of them preserves the invariant. In the last one everything
above a root leaves the stack: its edges lead to itself or to finished components, and each of its
vertices has a path down to the root.
-/

namespace FormRules.Search

open Relation

variable {ν : Type} [DecidableEq ν] {g : Graph ν} {s s' : Search ν} {u v w : ν} {next : Nat}
  {rest : List (ν × Nat)} {top below : List ν}

/-- What a step does to a state with a frame. -/
inductive Move (g : Graph ν) (s : Search ν) : Search ν → Prop where
  /-- An edge leads to a vertex without a number. -/
  | discover {v w : ν} {next : Nat} {rest : List (ν × Nat)} (frames : s.frames = (v, next) :: rest)
      (edge : (g.targets v)[next]? = some w) (new : w ∉ s.index.keys) :
      Move g s (visit { s with frames := (v, next + 1) :: rest } w)
  /-- An edge leads to a vertex on the stack. -/
  | touch {v w : ν} {next : Nat} {rest : List (ν × Nat)} (frames : s.frames = (v, next) :: rest)
      (edge : (g.targets v)[next]? = some w) (target : w ∈ s.stack) :
      Move g s (lower { s with frames := (v, next + 1) :: rest } v (s.indexOf w))
  /-- An edge leads to a finished component. -/
  | skip {v w : ν} {next : Nat} {rest : List (ν × Nat)} (frames : s.frames = (v, next) :: rest)
      (edge : (g.targets v)[next]? = some w) (target : w ∈ s.finished) :
      Move g s { s with frames := (v, next + 1) :: rest }
  /-- A frame without edges left is closed and its vertex stays on the stack. -/
  | retreat {v : ν} {next : Nat} {parent : ν × Nat} {rest : List (ν × Nat)}
      (frames : s.frames = (v, next) :: parent :: rest) (done : (g.targets v)[next]? = none)
      (lt : s.lowOf v < s.indexOf v) :
      Move g s (lower { s with frames := parent :: rest } parent.1 (s.lowOf v))
  /-- The frame of a root without edges left is closed and its component is finished. -/
  | finish {v : ν} {next : Nat} {rest : List (ν × Nat)} {top below : List ν}
      (frames : s.frames = (v, next) :: rest) (done : (g.targets v)[next]? = none)
      (stack : s.stack = top ++ v :: below) (root : s.lowOf v = s.indexOf v) :
      Move g s (s.cut v rest top below)

theorem Settled.congr (h : Settled g s) (e : s'.components = s.components) : Settled g s' := by
  have finished : s'.finished = s.finished := congrArg List.flatten e
  refine ⟨?_, e ▸ h.apart, e ▸ h.strong⟩
  rw [finished]
  exact h.closed

theorem step_of_edge (frames : s.frames = (v, next) :: rest)
    (edge : (g.targets v)[next]? = some w) :
    s.step g =
      if w ∉ s.index.keys then visit { s with frames := (v, next + 1) :: rest } w
      else if w ∈ s.onStack then
        lower { s with frames := (v, next + 1) :: rest } v (s.indexOf w)
      else { s with frames := (v, next + 1) :: rest } := by
  simp only [step, frames, edge, OrderedMap.contains_eq_true_iff]
  rfl

/-- The state in which the innermost frame is closed. -/
def closed (s : Search ν) (v : ν) (rest : List (ν × Nat)) : Search ν :=
  if s.lowOf v = s.indexOf v then complete { s with frames := rest } v
  else { s with frames := rest }

theorem step_of_last (frames : s.frames = [(v, next)]) (done : (g.targets v)[next]? = none) :
    s.step g = s.closed v [] := by
  simp only [step, frames, done]
  rfl

theorem step_of_done {parent : ν × Nat} (frames : s.frames = (v, next) :: parent :: rest)
    (done : (g.targets v)[next]? = none) :
    s.step g = (s.closed v (parent :: rest)).lower parent.1
      ((s.closed v (parent :: rest)).lowOf v) := by
  simp only [step, frames, done]
  rfl

namespace Invariant

theorem mem_stack_of_frames (h : Invariant g s) (frames : s.frames = (v, next) :: rest) :
    v ∈ s.stack :=
  h.layout.mem_stack_of_framed ((mem_framed_cons frames).2 (.inl rfl))

/-- Every frame reaches the innermost one. -/
theorem reaches_of_frames (h : Invariant g s) (frames : s.frames = (v, next) :: rest)
    (hu : u ∈ s.framed) : g.Reaches u v := by
  refine h.lows.reaches u hu v (h.mem_stack_of_frames frames) ?_
  rcases (mem_framed_cons frames).1 hu with rfl | hu
  · exact Nat.le_refl _
  · exact Nat.le_of_lt (h.layout.indexOf_lt_of_frames frames hu)

/-! ## The component of a root -/

theorem root_closed (h : Invariant g s) (frames : s.frames = (v, next) :: rest)
    (done : (g.targets v)[next]? = none) (stack : s.stack = top ++ v :: below)
    (root : s.lowOf v = s.indexOf v) (hu : u ∈ top ++ [v]) (edge : g.Edge u w) :
    w ∈ top ++ [v] ∨ w ∈ s.finished := by
  obtain ⟨stacked, above⟩ := (h.layout.mem_above_iff stack).1 hu
  have outside : ∀ x, x ∈ rest.map Prod.fst → s.indexOf x < s.indexOf v := fun x hx ↦
    h.layout.indexOf_lt_of_frames frames hx
  have followed : Followed g s u w := by
    refine Followed.of_close frames done ⟨edge, fun n hn ↦ ?_⟩
    have := outside u (List.mem_map_of_mem hn)
    omega
  have met := h.followed u ((h.layout.mem_index u).2 (.inl stacked)) w followed
  refine ((h.layout.mem_index w).1 met).imp_left fun hw ↦ ?_
  obtain ⟨inner, framed, le, low⟩ :=
    h.lows.covers v ((mem_framed_cons frames).2 (.inl rfl)) u stacked above w hw followed
  have innermost : inner = v := by
    refine ((mem_framed_cons frames).1 framed).resolve_right fun hi ↦ ?_
    have := outside inner hi
    omega
  rw [innermost, root] at low
  exact (h.layout.mem_above_iff stack).2 ⟨hw, low⟩

theorem reaches_root (h : Invariant g s) (frames : s.frames = (v, next) :: rest)
    (done : (g.targets v)[next]? = none) (stack : s.stack = top ++ v :: below)
    (root : s.lowOf v = s.indexOf v) (hu : u ∈ top ++ [v]) : g.Reaches u v := by
  have closed : ∀ x ∈ (top ++ [v]) ++ s.finished, ∀ y, g.Edge x y →
      y ∈ (top ++ [v]) ++ s.finished := by
    intro x hx y edge
    rcases List.mem_append.1 hx with hx | hx
    · exact List.mem_append.2 (h.root_closed frames done stack root hx edge)
    · exact List.mem_append_right _ (h.settled.closed x hx y edge)
  induction number : s.indexOf u using Nat.strongRecOn generalizing u with
  | _ number ih =>
    obtain ⟨stacked, above⟩ := (h.layout.mem_above_iff stack).1 hu
    by_cases e : u = v
    · exact e ▸ .refl
    · have unframed : u ∉ s.framed := fun framed ↦ by
        have := h.layout.indexOf_lt_of_frames frames
          (((mem_framed_cons frames).1 framed).resolve_left e)
        omega
      have lt := h.lows.lt u stacked unframed
      obtain ⟨w, hw, attained, path⟩ := h.lows.attained u stacked
      have inside : w ∈ top ++ [v] :=
        (List.mem_append.1 (path.mem_of_closed closed (List.mem_append_left _ hu))).resolve_right
          (h.layout.notMem_finished hw)
      exact path.trans (ih (s.indexOf w) (by omega) inside rfl)

theorem settled_cut (h : Invariant g s) (frames : s.frames = (v, next) :: rest)
    (done : (g.targets v)[next]? = none) (stack : s.stack = top ++ v :: below)
    (root : s.lowOf v = s.indexOf v) : Settled g (s.cut v rest top below) := by
  have mem : ∀ u, u ∈ (top ++ [v]).reverse ↔ u ∈ top ++ [v] := fun u ↦ List.mem_reverse
  refine ⟨?_, List.pairwise_append.2 ⟨h.settled.apart, List.pairwise_singleton _ _, ?_⟩, ?_⟩
  · intro u hu w edge
    rw [finished_cut, List.mem_append, mem] at hu ⊢
    rcases hu with hu | hu
    · exact .inl (h.settled.closed u hu w edge)
    · exact (h.root_closed frames done stack root hu edge).symm
  · intro c hc d hd u hu w hw path
    rw [List.mem_singleton.1 hd, mem] at hw
    have finished : w ∈ s.finished :=
      path.mem_of_closed h.settled.closed (List.mem_flatten_of_mem hc hu)
    exact h.layout.notMem_finished ((h.layout.mem_above_iff stack).1 hw).1 finished
  · intro c hc u hu w hw
    rcases List.mem_append.1 hc with hc | hc
    · exact h.settled.strong c hc u hu w hw
    · rw [List.mem_singleton.1 hc, mem] at hu hw
      obtain ⟨stacked, above⟩ := (h.layout.mem_above_iff stack).1 hw
      exact (h.reaches_root frames done stack root hu).trans
        (h.lows.reaches v ((mem_framed_cons frames).2 (.inl rfl)) w stacked above)

/-! ## Moves -/

theorem visit (h : Invariant g s) (hv : v ∈ g.vertices) (new : v ∉ s.index.keys)
    (frames : s.frames = []) : Invariant g (s.visit v) where
  layout := h.layout.visit hv new
  followed u hu w followed := by
    obtain ⟨ne, followed⟩ := followed.of_visit
    have met := (OrderedMap.mem_keys_insert.1 hu).resolve_left ne
    exact OrderedMap.mem_keys_insert.2 (.inr (h.followed u met w followed))
  lows := h.lows.visit h.layout new fun f hf ↦ by
    rw [framed, frames] at hf
    cases hf
  settled := h.settled.congr rfl

theorem discover (h : Invariant g s) (frames : s.frames = (v, next) :: rest)
    (edge : (g.targets v)[next]? = some w) (new : w ∉ s.index.keys) :
    Invariant g (Search.visit { s with frames := (v, next + 1) :: rest } w) where
  layout := (h.layout.advance frames _).visit
    (Graph.mem_vertices_of_mem_targets (List.mem_of_getElem? edge)) new
  followed u hu x followed := by
    obtain ⟨ne, followed⟩ := followed.of_visit
    have met := (OrderedMap.mem_keys_insert.1 hu).resolve_left ne
    rcases followed.of_advance frames edge with followed | ⟨-, rfl⟩
    · exact OrderedMap.mem_keys_insert.2 (.inr (h.followed u met x followed))
    · exact OrderedMap.mem_keys_insert.2 (.inl rfl)
  lows := by
    have lows := h.lows.advance frames edge fun hw ↦ absurd hw (h.layout.notMem_stack new)
    refine lows.visit (h.layout.advance frames _) new fun f hf ↦ ?_
    have hf : f ∈ s.framed := by
      rw [framed, frames]
      exact hf
    exact (h.reaches_of_frames frames hf).tail (List.mem_of_getElem? edge)
  settled := h.settled.congr rfl

theorem followed_advance (h : Invariant g s) (frames : s.frames = (v, next) :: rest)
    (edge : (g.targets v)[next]? = some w) (met : w ∈ s.index.keys) :
    ∀ u ∈ s.index.keys, ∀ x, Followed g { s with frames := (v, next + 1) :: rest } u x →
      x ∈ s.index.keys := by
  intro u hu x followed
  rcases followed.of_advance frames edge with followed | ⟨-, rfl⟩
  · exact h.followed u hu x followed
  · exact met

theorem touch (h : Invariant g s) (frames : s.frames = (v, next) :: rest)
    (edge : (g.targets v)[next]? = some w) (target : w ∈ s.stack) :
    Invariant g (lower { s with frames := (v, next + 1) :: rest } v (s.indexOf w)) where
  layout := (h.layout.advance frames _).lower (h.mem_stack_of_frames frames) _
  followed := h.followed_advance frames edge ((h.layout.mem_index w).2 (.inl target))
  lows := by
    -- Lowering first keeps the new edge accounted for when it is followed.
    have lows := h.lows.lower target (.single (List.mem_of_getElem? edge))
    refine lows.advance (s := s.lower v (s.indexOf w)) frames edge fun _ ↦ ?_
    rw [lowOf_lower_self]
    exact Nat.min_le_right _ _
  settled := h.settled.congr rfl

theorem skip (h : Invariant g s) (frames : s.frames = (v, next) :: rest)
    (edge : (g.targets v)[next]? = some w) (target : w ∈ s.finished) :
    Invariant g { s with frames := (v, next + 1) :: rest } where
  layout := h.layout.advance frames _
  followed := h.followed_advance frames edge ((h.layout.mem_index w).2 (.inr target))
  lows := h.lows.advance frames edge fun hw ↦ absurd target (h.layout.notMem_finished hw)
  settled := h.settled.congr rfl

theorem retreat (h : Invariant g s) {parent : ν × Nat}
    (frames : s.frames = (v, next) :: parent :: rest) (done : (g.targets v)[next]? = none)
    (lt : s.lowOf v < s.indexOf v) :
    Invariant g (lower { s with frames := parent :: rest } parent.1 (s.lowOf v)) := by
  have framed : parent.1 ∈ s.framed := (mem_framed_cons frames).2 (.inr List.mem_cons_self)
  have below := h.layout.indexOf_lt_of_frames frames (List.mem_cons_self : parent.1 ∈ _)
  obtain ⟨w, hw, attained, path⟩ := h.lows.attained v (h.mem_stack_of_frames frames)
  refine ⟨(h.layout.close frames).lower (h.layout.mem_stack_of_framed framed) _,
    fun u hu x followed ↦ h.followed u hu x (followed.of_close frames done), ?_,
    h.settled.congr rfl⟩
  -- The parent learns the child's low number before the child's frame is gone.
  have layout := h.layout.lower (h.layout.mem_stack_of_framed framed) (s.lowOf v)
  have lows := h.lows.lower hw ((h.reaches_of_frames frames framed).trans path)
  rw [attained] at lows
  have other : (s.lower parent.1 (s.lowOf v)).lowOf v = s.lowOf v :=
    lowOf_lower_of_ne fun e ↦ Nat.lt_irrefl _ (e ▸ below)
  refine lows.close layout (s := s.lower parent.1 (s.lowOf v)) frames done ?_ ?_
  · rw [other]
    exact lt
  · rw [other, lowOf_lower_self]
    exact Nat.min_le_right _ _

theorem cut (h : Invariant g s) (frames : s.frames = (v, next) :: rest)
    (done : (g.targets v)[next]? = none) (stack : s.stack = top ++ v :: below)
    (root : s.lowOf v = s.indexOf v) : Invariant g (s.cut v rest top below) where
  layout := h.layout.cut frames stack
  followed u hu x followed := h.followed u hu x (followed.of_close frames done)
  lows := h.lows.cut h.layout frames done stack root
  settled := h.settled_cut frames done stack root

theorem of_move (h : Invariant g s) (move : Move g s s') : Invariant g s' := by
  cases move with
  | discover frames edge new => exact h.discover frames edge new
  | touch frames edge target => exact h.touch frames edge target
  | skip frames edge target => exact h.skip frames edge target
  | retreat frames done lt => exact h.retreat frames done lt
  | finish frames done stack root => exact h.cut frames done stack root

/-- The only frame belongs to a root. -/
theorem lowOf_eq_of_frames (h : Invariant g s) (frames : s.frames = [(v, next)]) :
    s.lowOf v = s.indexOf v := by
  have stacked := h.mem_stack_of_frames frames
  obtain ⟨w, hw, attained, -⟩ := h.lows.attained v stacked
  obtain ⟨f, hf, le, -⟩ := h.exists_framed hw
  have only : f = v := ((mem_framed_cons frames).1 hf).resolve_right List.not_mem_nil
  have := h.lows.le v stacked
  rw [only] at le
  omega

theorem move_step (h : Invariant g s) (frames : s.frames ≠ []) : Move g s (s.step g) := by
  obtain ⟨⟨v, next⟩, rest, frames⟩ := List.exists_cons_of_ne_nil frames
  have stacked := h.mem_stack_of_frames frames
  cases edge : (g.targets v)[next]? with
  | some w =>
    have onStack : w ∈ s.onStack ↔ w ∈ s.stack := by rw [h.layout.onStack]
    rw [step_of_edge frames edge]
    by_cases met : w ∈ s.index.keys
    · rw [if_neg (not_not.2 met)]
      rcases (h.layout.mem_index w).1 met with target | target
      · rw [if_pos (onStack.2 target)]
        exact .touch frames edge target
      · rw [if_neg fun stacked ↦ h.layout.notMem_finished (onStack.1 stacked) target]
        exact .skip frames edge target
    · rw [if_pos met]
      exact .discover frames edge met
  | none =>
    by_cases root : s.lowOf v = s.indexOf v
    · obtain ⟨top, below, stack⟩ := List.append_of_mem stacked
      have cut : s.closed v rest = s.cut v rest top below := by
        rw [closed, if_pos root]
        exact complete_eq stack h.layout.onStack h.layout.nodup_stack
      cases rest with
      | nil =>
        rw [step_of_last frames edge, cut]
        exact .finish frames edge stack root
      | cons parent rest =>
        -- A finished child has nothing to tell its parent.
        have framed : parent.1 ∈ s.framed := (mem_framed_cons frames).2 (.inr List.mem_cons_self)
        have stacked' := h.layout.mem_stack_of_framed framed
        have known : parent.1 ∈ s.low.keys :=
          (h.layout.mem_low _).2 ((h.layout.mem_index _).2 (.inl stacked'))
        have low : s.lowOf parent.1 ≤ s.lowOf v := by
          have := h.lows.le _ stacked'
          have := h.layout.indexOf_lt_of_frames frames (List.mem_cons_self : parent.1 ∈ _)
          omega
        have same : lower (s.cut v (parent :: rest) top below) parent.1
            ((s.cut v (parent :: rest) top below).lowOf v) =
              s.cut v (parent :: rest) top below := lower_eq_self known low
        rw [step_of_done frames edge, cut, same]
        exact .finish frames edge stack root
    · have kept : s.closed v rest = { s with frames := rest } := by rw [closed, if_neg root]
      cases rest with
      | nil => exact absurd (h.lowOf_eq_of_frames frames) root
      | cons parent rest =>
        rw [step_of_done frames edge, kept]
        exact .retreat frames edge (Nat.lt_of_le_of_ne (h.lows.le v stacked) root)

theorem step (h : Invariant g s) (frames : s.frames ≠ []) : Invariant g (s.step g) :=
  h.of_move (h.move_step frames)

end Invariant

end FormRules.Search
