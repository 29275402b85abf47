import FormRules.Proofs.Graph.Invariant

/-!
# What the operations of a search preserve

Each group of the invariant is carried through each operation on its own. Between two operations of
one step an edge may lead to a vertex without a number, so that group is carried through whole
steps only.
-/

namespace FormRules.Search

open Relation

variable {ν : Type} [DecidableEq ν] {g : Graph ν} {s : Search ν} {u v w x : ν} {next number : Nat}
  {rest : List (ν × Nat)} {top below : List ν}

/-- The state in which the frame of a root is closed and its component is finished. -/
def cut (s : Search ν) (root : ν) (rest : List (ν × Nat)) (top below : List ν) : Search ν :=
  { s with
    frames := rest
    stack := below
    onStack := below
    components := s.components ++ [(top ++ [root]).reverse] }

omit [DecidableEq ν] in
theorem finished_cut : (s.cut v rest top below).finished = s.finished ++ (top ++ [v]).reverse := by
  simp [finished, cut]

omit [DecidableEq ν] in
theorem sublist_below {inner : List ν} (h : v ∉ top)
    (sub : (v :: inner).Sublist (top ++ v :: below)) :
    inner.Sublist below := by
  induction top with
  | nil => exact List.cons_sublist_cons.1 sub
  | cons x top ih =>
    rw [List.mem_cons, not_or] at h
    rw [List.cons_append] at sub
    cases sub with
    | cons _ sub => exact ih h.2 sub
    | cons_cons => exact absurd rfl h.1

/-! ## Followed edges -/

theorem Followed.of_advance (frames : s.frames = (v, next) :: rest)
    (edge : (g.targets v)[next]? = some w)
    (h : Followed g { s with frames := (v, next + 1) :: rest } u x) :
    Followed g s u x ∨ u = v ∧ x = w := by
  by_cases place : u = v ∧ x ∉ (g.targets v).take next
  · obtain ⟨rfl, fresh⟩ := place
    have taken := h.2 (next + 1) List.mem_cons_self
    rw [List.take_add_one, edge, Option.toList_some, List.mem_append, List.mem_singleton] at taken
    exact .inr ⟨rfl, taken.resolve_left fresh⟩
  · refine .inl ⟨h.1, fun n hn ↦ ?_⟩
    rw [frames] at hn
    rcases List.mem_cons.1 hn with e | hn
    · cases e
      by_contra fresh
      exact place ⟨rfl, fresh⟩
    · exact h.2 n (List.mem_cons_of_mem _ hn)

theorem Followed.of_visit (h : Followed g (s.visit v) u x) : u ≠ v ∧ Followed g s u x := by
  refine ⟨?_, h.1, fun n hn ↦ h.2 n (List.mem_cons_of_mem _ hn)⟩
  rintro rfl
  have taken := h.2 0 List.mem_cons_self
  rw [List.take_zero] at taken
  cases taken

theorem Followed.of_close (frames : s.frames = (v, next) :: rest)
    (done : (g.targets v)[next]? = none) (h : Followed g { s with frames := rest } u x) :
    Followed g s u x := by
  refine ⟨h.1, fun n hn ↦ ?_⟩
  rw [frames] at hn
  rcases List.mem_cons.1 hn with e | hn
  · cases e
    rw [List.take_of_length_le (List.getElem?_eq_none_iff.1 done)]
    exact h.1
  · exact h.2 n hn

/-! ## Layout -/

namespace Layout

theorem advance (h : Layout g s) (frames : s.frames = (v, next) :: rest) (next' : Nat) :
    Layout g { s with frames := (v, next') :: rest } := by
  have framed := h.framed
  rw [Search.framed, frames] at framed
  exact { h with framed := framed }

theorem close (h : Layout g s) (frames : s.frames = (v, next) :: rest) :
    Layout g { s with frames := rest } := by
  have framed := h.framed
  rw [Search.framed, frames] at framed
  exact { h with framed := List.sublist_of_cons_sublist framed }

theorem lower (h : Layout g s) (hv : v ∈ s.stack) (number : Nat) :
    Layout g (s.lower v number) := by
  refine { h with mem_low := fun u ↦ ?_ }
  rw [Search.lower, OrderedMap.mem_keys_insert, h.mem_low]
  constructor
  · rintro (rfl | hu)
    · exact (h.mem_index u).2 (.inl hv)
    · exact hu
  · exact .inr

theorem notMem_stack (h : Layout g s) (new : v ∉ s.index.keys) : v ∉ s.stack :=
  fun hv ↦ new ((h.mem_index v).2 (.inl hv))

theorem indexOf_visit (h : Layout g s) (new : v ∉ s.index.keys) (hu : u ∈ s.stack) :
    (s.visit v).indexOf u = s.indexOf u :=
  indexOf_visit_of_ne fun e ↦ h.notMem_stack new (e ▸ hu)

theorem lowOf_visit (h : Layout g s) (new : v ∉ s.index.keys) (hu : u ∈ s.stack) :
    (s.visit v).lowOf u = s.lowOf u :=
  lowOf_visit_of_ne fun e ↦ h.notMem_stack new (e ▸ hu)

theorem visit (h : Layout g s) (hv : v ∈ g.vertices) (new : v ∉ s.index.keys) :
    Layout g (s.visit v) where
  onStack := congrArg (v :: ·) h.onStack
  nodup := by
    refine List.nodup_cons.2 ⟨fun hv ↦ new ((h.mem_index v).2 ?_), h.nodup⟩
    exact List.mem_append.1 hv
  mem_index u := by
    change u ∈ (s.index.insert v s.index.size).keys ↔ u ∈ v :: s.stack ∨ u ∈ s.finished
    rw [OrderedMap.mem_keys_insert, h.mem_index, List.mem_cons, or_assoc]
  mem_low u := by
    change u ∈ (s.low.insert v s.index.size).keys ↔ u ∈ (s.index.insert v s.index.size).keys
    rw [OrderedMap.mem_keys_insert, OrderedMap.mem_keys_insert, h.mem_low]
  framed := h.framed.cons_cons v
  descending := by
    refine List.pairwise_cons.2 ⟨fun u hu ↦ ?_, h.descending.imp_of_mem fun ha hb lt ↦ ?_⟩
    · rw [h.indexOf_visit new hu, indexOf_visit_self]
      exact h.bounded u hu
    · rwa [h.indexOf_visit new ha, h.indexOf_visit new hb]
  bounded u hu := by
    change _ < (s.index.insert v s.index.size).size
    rw [OrderedMap.size_insert _ new]
    rcases List.mem_cons.1 hu with rfl | hu
    · rw [indexOf_visit_self]
      exact Nat.lt_succ_self _
    · rw [h.indexOf_visit new hu]
      exact Nat.lt_succ_of_lt (h.bounded u hu)
  vertices u hu := by
    rcases OrderedMap.mem_keys_insert.1 hu with rfl | hu
    · exact hv
    · exact h.vertices u hu

theorem cut (h : Layout g s) (frames : s.frames = (v, next) :: rest)
    (stack : s.stack = top ++ v :: below) : Layout g (s.cut v rest top below) where
  onStack := rfl
  nodup := by
    have nodup := h.nodup
    rw [stack, List.append_cons, List.append_assoc] at nodup
    rw [finished_cut, ← List.append_assoc]
    exact ((List.reverse_perm _).append_left _ |>.trans List.perm_append_comm).nodup_iff.2 nodup
  mem_index u := by
    change u ∈ s.index.keys ↔ u ∈ below ∨ u ∈ (s.cut v rest top below).finished
    rw [h.mem_index, stack, finished_cut]
    simp only [List.mem_append, List.mem_cons, List.mem_reverse, List.not_mem_nil]
    tauto
  mem_low := h.mem_low
  framed := by
    have framed := h.framed
    rw [Search.framed, frames, stack, List.map_cons] at framed
    have nodup := h.nodup_stack
    rw [stack] at nodup
    exact sublist_below (fun hv ↦ (List.nodup_append.1 nodup).2.2 v hv v List.mem_cons_self rfl)
      framed
  descending := by
    have descending := h.descending
    rw [stack] at descending
    exact (List.pairwise_cons.1 (List.pairwise_append.1 descending).2.1).2
  bounded u hu := h.bounded u (stack ▸ List.mem_append_right _ (List.mem_cons_of_mem _ hu))
  vertices := h.vertices

end Layout

/-! ## Low numbers -/

namespace Lows

theorem advance (h : Lows g s) (frames : s.frames = (v, next) :: rest)
    (edge : (g.targets v)[next]? = some w) (small : w ∈ s.stack → s.lowOf v ≤ s.indexOf w) :
    Lows g { s with frames := (v, next + 1) :: rest } := by
  have same : ∀ f, f ∈ ({ s with frames := (v, next + 1) :: rest } : Search ν).framed ↔
      f ∈ s.framed := fun f ↦ by rw [framed, framed, frames, List.map_cons, List.map_cons]
  refine ⟨fun f hf ↦ h.reaches f ((same f).1 hf), h.le, h.attained,
    fun u hu out ↦ h.lt u hu (mt (same u).2 out), fun f hf u hu above x hx followed ↦ ?_⟩
  rcases followed.of_advance frames edge with followed | ⟨rfl, rfl⟩
  · obtain ⟨inner, hinner, le, low⟩ := h.covers f ((same f).1 hf) u hu above x hx followed
    exact ⟨inner, (same inner).2 hinner, le, low⟩
  · exact ⟨u, (same u).2 ((mem_framed_cons frames).2 (.inl rfl)), above, small hx⟩

theorem lower (h : Lows g s) (hw : w ∈ s.stack) (path : g.Reaches v w) :
    Lows g (s.lower v (s.indexOf w)) := by
  refine ⟨h.reaches, fun u hu ↦ Nat.le_trans lowOf_lower_le (h.le u hu), fun u hu ↦ ?_,
    fun u hu out ↦ Nat.lt_of_le_of_lt lowOf_lower_le (h.lt u hu out),
    fun f hf u hu above x hx followed ↦ ?_⟩
  · obtain ⟨x, hx, attained, path'⟩ := h.attained u hu
    by_cases e : u = v
    · subst e
      rw [lowOf_lower_self]
      rcases Nat.le_total (s.lowOf u) (s.indexOf w) with le | le
      · exact ⟨x, hx, attained.trans (Nat.min_eq_left le).symm, path'⟩
      · exact ⟨w, hw, (Nat.min_eq_right le).symm, path⟩
    · rw [lowOf_lower_of_ne e]
      exact ⟨x, hx, attained, path'⟩
  · obtain ⟨inner, hinner, le, low⟩ := h.covers f hf u hu above x hx followed
    exact ⟨inner, hinner, le, Nat.le_trans lowOf_lower_le low⟩

/-- The innermost frame that has no edges left hands over to the next one, which must know what it
knew. -/
theorem close (h : Lows g s) (layout : Layout g s) {parent : ν × Nat}
    (frames : s.frames = (v, next) :: parent :: rest) (done : (g.targets v)[next]? = none)
    (lt : s.lowOf v < s.indexOf v) (known : s.lowOf parent.1 ≤ s.lowOf v) :
    Lows g { s with frames := parent :: rest } := by
  have split : ∀ f, f ∈ s.framed ↔
      f = v ∨ f ∈ ({ s with frames := parent :: rest } : Search ν).framed :=
    fun f ↦ mem_framed_cons frames
  refine ⟨fun f hf ↦ h.reaches f ((split f).2 (.inr hf)), h.le, h.attained,
    fun u hu out ↦ ?_, fun f hf u hu above x hx followed ↦ ?_⟩
  · by_cases e : u = v
    · exact e ▸ lt
    · exact h.lt u hu fun framed ↦ ((split u).1 framed).elim e out
  · obtain ⟨inner, hinner, le, low⟩ :=
      h.covers f ((split f).2 (.inr hf)) u hu above x hx (followed.of_close frames done)
    rcases (split inner).1 hinner with rfl | hinner
    · refine ⟨parent.1, List.mem_cons_self, ?_, Nat.le_trans known low⟩
      rcases List.mem_cons.1 hf with rfl | hf
      · exact Nat.le_refl _
      · exact Nat.le_of_lt ((layout.close frames).indexOf_lt_of_frames rfl hf)
    · exact ⟨inner, hinner, le, low⟩

theorem visit (h : Lows g s) (layout : Layout g s) (new : v ∉ s.index.keys)
    (path : ∀ f ∈ s.framed, g.Reaches f v) : Lows g (s.visit v) := by
  have old : ∀ u ∈ s.stack, (s.visit v).indexOf u = s.indexOf u ∧ (s.visit v).lowOf u = s.lowOf u :=
    fun u hu ↦ ⟨layout.indexOf_visit new hu, layout.lowOf_visit new hu⟩
  have self : (s.visit v).lowOf v = (s.visit v).indexOf v :=
    lowOf_visit_self.trans indexOf_visit_self.symm
  refine ⟨?_, ?_, ?_, ?_, ?_⟩
  · intro f hf u hu above
    rcases List.mem_cons.1 hf with rfl | framed
    · rcases List.mem_cons.1 hu with rfl | stacked
      · exact .refl
      · have := layout.bounded u stacked
        rw [indexOf_visit_self, (old u stacked).1] at above
        omega
    · rcases List.mem_cons.1 hu with rfl | stacked
      · exact path f framed
      · rw [(old u stacked).1, (old f (layout.mem_stack_of_framed framed)).1] at above
        exact h.reaches f framed u stacked above
  · intro u hu
    rcases List.mem_cons.1 hu with rfl | hu
    · exact Nat.le_of_eq self
    · rw [(old u hu).1, (old u hu).2]
      exact h.le u hu
  · intro u hu
    rcases List.mem_cons.1 hu with rfl | hu
    · exact ⟨u, List.mem_cons_self, self.symm, .refl⟩
    · obtain ⟨w, hw, attained, path'⟩ := h.attained u hu
      refine ⟨w, List.mem_cons_of_mem _ hw, ?_, path'⟩
      rw [(old w hw).1, (old u hu).2, attained]
  · intro u hu out
    rcases List.mem_cons.1 hu with rfl | hu
    · exact absurd List.mem_cons_self out
    · rw [(old u hu).1, (old u hu).2]
      exact h.lt u hu fun framed ↦ out (List.mem_cons_of_mem _ framed)
  · intro f hf u hu above x hx followed
    obtain ⟨ne, followed⟩ := followed.of_visit
    have stacked := (List.mem_cons.1 hu).resolve_left ne
    have framed : f ∈ s.framed := by
      rcases List.mem_cons.1 hf with rfl | framed
      · have := layout.bounded u stacked
        rw [indexOf_visit_self, (old u stacked).1] at above
        omega
      · exact framed
    have hfs := layout.mem_stack_of_framed framed
    rw [(old f hfs).1, (old u stacked).1] at above
    rcases List.mem_cons.1 hx with rfl | target
    · refine ⟨f, List.mem_cons_of_mem _ framed, Nat.le_refl _, ?_⟩
      have := h.le f hfs
      have := layout.bounded f hfs
      rw [(old f hfs).2, indexOf_visit_self]
      omega
    · obtain ⟨inner, hinner, le, low⟩ := h.covers f framed u stacked above x target followed
      have his := layout.mem_stack_of_framed hinner
      refine ⟨inner, List.mem_cons_of_mem _ hinner, ?_, ?_⟩
      · rwa [(old f hfs).1, (old inner his).1]
      · rwa [(old inner his).2, (old x target).1]

/-- What stays on the stack below a root knows nothing of what leaves it. -/
theorem cut (h : Lows g s) (layout : Layout g s) (frames : s.frames = (v, next) :: rest)
    (done : (g.targets v)[next]? = none) (stack : s.stack = top ++ v :: below)
    (root : s.lowOf v = s.indexOf v) : Lows g (s.cut v rest top below) := by
  have old : ∀ u ∈ below, u ∈ s.stack := fun u hu ↦ ((layout.mem_below_iff stack).1 hu).1
  have smaller : ∀ u ∈ below, s.indexOf u < s.indexOf v := fun u hu ↦
    ((layout.mem_below_iff stack).1 hu).2
  have outer : ∀ f, f ∈ (s.cut v rest top below).framed → f ∈ s.framed :=
    fun f hf ↦ (mem_framed_cons frames).2 (.inr hf)
  refine ⟨fun f hf u hu ↦ h.reaches f (outer f hf) u (old u hu), fun u hu ↦ h.le u (old u hu),
    fun u hu ↦ ?_, fun u hu out ↦ ?_, fun f hf u hu above x hx followed ↦ ?_⟩
  · obtain ⟨w, hw, attained, path⟩ := h.attained u (old u hu)
    refine ⟨w, (layout.mem_below_iff stack).2 ⟨hw, ?_⟩, attained, path⟩
    have := h.le u (old u hu)
    have := smaller u hu
    omega
  · refine h.lt u (old u hu) fun framed ↦ ?_
    rcases (mem_framed_cons frames).1 framed with rfl | framed
    · exact Nat.lt_irrefl _ (smaller u hu)
    · exact out framed
  · obtain ⟨inner, hinner, le, low⟩ :=
      h.covers f (outer f hf) u (old u hu) above x (old x hx) (followed.of_close frames done)
    rcases (mem_framed_cons frames).1 hinner with rfl | hinner
    · have := smaller x hx
      omega
    · exact ⟨inner, hinner, le, low⟩

end Lows

end FormRules.Search
