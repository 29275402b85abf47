import FormRules.Proofs.Graph.Operation

/-!
# The invariant of the search

Four groups of facts hold between any two steps: how the parts of a state fit together, that the
edges followed so far lead to vertices with a number, what the low numbers say about paths, and that
the finished components are the strongly connected ones. The stack above an innermost frame whose
low number is its own is then a strongly connected component.
-/

namespace FormRules.Search

variable {ν : Type} [DecidableEq ν] {g : Graph ν} {s : Search ν} {u v w : ν} {top below : List ν}

/-- An edge has been followed. All edges of a vertex without a frame have been. -/
def Followed (g : Graph ν) (s : Search ν) (v w : ν) : Prop :=
  g.Edge v w ∧ ∀ next, (v, next) ∈ s.frames → w ∈ (g.targets v).take next

/-- How the parts of a state fit together. -/
structure Layout (g : Graph ν) (s : Search ν) : Prop where
  onStack : s.onStack = s.stack
  nodup : (s.stack ++ s.finished).Nodup
  mem_index : ∀ v, v ∈ s.index.keys ↔ v ∈ s.stack ∨ v ∈ s.finished
  mem_low : ∀ v, v ∈ s.low.keys ↔ v ∈ s.index.keys
  framed : s.framed.Sublist s.stack
  descending : s.stack.Pairwise fun v w ↦ s.indexOf w < s.indexOf v
  bounded : ∀ v ∈ s.stack, s.indexOf v < s.index.size
  vertices : ∀ v ∈ s.index.keys, v ∈ g.vertices

/-- What the low numbers say about paths between vertices on the stack. The last field is what makes
a root a root: whatever is followed from above a frame is accounted for by that frame or by one
further in. -/
structure Lows (g : Graph ν) (s : Search ν) : Prop where
  reaches : ∀ f ∈ s.framed, ∀ u ∈ s.stack, s.indexOf f ≤ s.indexOf u → g.Reaches f u
  le : ∀ u ∈ s.stack, s.lowOf u ≤ s.indexOf u
  attained : ∀ u ∈ s.stack, ∃ w ∈ s.stack, s.indexOf w = s.lowOf u ∧ g.Reaches u w
  lt : ∀ u ∈ s.stack, u ∉ s.framed → s.lowOf u < s.indexOf u
  covers : ∀ f ∈ s.framed, ∀ u ∈ s.stack, s.indexOf f ≤ s.indexOf u →
    ∀ w ∈ s.stack, Followed g s u w →
      ∃ inner ∈ s.framed, s.indexOf f ≤ s.indexOf inner ∧ s.lowOf inner ≤ s.indexOf w

/-- The finished components are strongly connected, and no path leads from one of them to what was
finished later or not at all. -/
structure Settled (g : Graph ν) (s : Search ν) : Prop where
  closed : ∀ v ∈ s.finished, ∀ w, g.Edge v w → w ∈ s.finished
  apart : s.components.Pairwise fun c d ↦ ∀ v ∈ c, ∀ w ∈ d, ¬g.Reaches v w
  strong : ∀ c ∈ s.components, ∀ v ∈ c, ∀ w ∈ c, g.Reaches v w

structure Invariant (g : Graph ν) (s : Search ν) : Prop where
  layout : Layout g s
  followed : ∀ v ∈ s.index.keys, ∀ w, Followed g s v w → w ∈ s.index.keys
  lows : Lows g s
  settled : Settled g s

namespace Layout

theorem mem_stack_of_framed (h : Layout g s) (hv : v ∈ s.framed) : v ∈ s.stack :=
  h.framed.subset hv

theorem nodup_stack (h : Layout g s) : s.stack.Nodup := (List.nodup_append.1 h.nodup).1

theorem notMem_finished (h : Layout g s) (hv : v ∈ s.stack) : v ∉ s.finished :=
  fun finished ↦ (List.nodup_append.1 h.nodup).2.2 v hv v finished rfl

/-- What stands above a vertex on the stack has a greater number, and what stands below a smaller
one. -/
theorem indexOf_of_split (h : Layout g s) (stack : s.stack = top ++ v :: below) :
    (∀ u ∈ top, s.indexOf v < s.indexOf u) ∧ ∀ u ∈ below, s.indexOf u < s.indexOf v := by
  have descending := h.descending
  rw [stack, List.pairwise_append, List.pairwise_cons] at descending
  obtain ⟨-, ⟨smaller, -⟩, greater⟩ := descending
  exact ⟨fun u hu ↦ greater u hu v List.mem_cons_self, smaller⟩

theorem mem_above_iff (h : Layout g s) (stack : s.stack = top ++ v :: below) :
    u ∈ top ++ [v] ↔ u ∈ s.stack ∧ s.indexOf v ≤ s.indexOf u := by
  obtain ⟨greater, smaller⟩ := h.indexOf_of_split stack
  rw [stack, List.mem_append, List.mem_append, List.mem_singleton, List.mem_cons]
  constructor
  · rintro (hu | rfl)
    · exact ⟨.inl hu, Nat.le_of_lt (greater u hu)⟩
    · exact ⟨.inr (.inl rfl), Nat.le_refl _⟩
  · rintro ⟨hu | rfl | hu, le⟩
    · exact .inl hu
    · exact .inr rfl
    · exact absurd (smaller u hu) (Nat.not_lt.2 le)

theorem mem_below_iff (h : Layout g s) (stack : s.stack = top ++ v :: below) :
    u ∈ below ↔ u ∈ s.stack ∧ s.indexOf u < s.indexOf v := by
  obtain ⟨greater, smaller⟩ := h.indexOf_of_split stack
  rw [stack, List.mem_append, List.mem_cons]
  constructor
  · intro hu
    exact ⟨.inr (.inr hu), smaller u hu⟩
  · rintro ⟨hu | rfl | hu, lt⟩
    · exact absurd (greater u hu) (Nat.lt_asymm lt)
    · exact absurd lt (Nat.lt_irrefl _)
    · exact hu

/-- The innermost frame has the greatest number of all frames. -/
theorem indexOf_lt_of_frames (h : Layout g s) {next : Nat} {rest : List (ν × Nat)}
    (frames : s.frames = (v, next) :: rest) (hu : u ∈ rest.map Prod.fst) :
    s.indexOf u < s.indexOf v := by
  have descending := h.descending.sublist h.framed
  rw [Search.framed, frames, List.map_cons, List.pairwise_cons] at descending
  exact descending.1 u hu

end Layout

omit [DecidableEq ν] in
theorem mem_framed_cons {next : Nat} {rest : List (ν × Nat)}
    (frames : s.frames = (v, next) :: rest) :
    u ∈ s.framed ↔ u = v ∨ u ∈ rest.map Prod.fst := by
  rw [Search.framed, frames, List.map_cons, List.mem_cons]

namespace Invariant

/-- From every vertex on the stack a path leads down to a frame. -/
theorem exists_framed (h : Invariant g s) (hu : u ∈ s.stack) :
    ∃ f ∈ s.framed, s.indexOf f ≤ s.indexOf u ∧ g.Reaches u f := by
  induction number : s.indexOf u using Nat.strongRecOn generalizing u with
  | _ number ih =>
    by_cases framed : u ∈ s.framed
    · exact ⟨u, framed, Nat.le_of_eq number, .refl⟩
    · have lt := h.lows.lt u hu framed
      obtain ⟨w, hw, attained, path⟩ := h.lows.attained u hu
      obtain ⟨f, hf, le, path'⟩ := ih (s.indexOf w) (by omega) hw rfl
      exact ⟨f, hf, by omega, path.trans path'⟩

theorem stack_eq_nil (h : Invariant g s) (frames : s.frames = []) : s.stack = [] := by
  refine List.eq_nil_iff_forall_not_mem.2 fun u hu ↦ ?_
  obtain ⟨f, hf, -⟩ := h.exists_framed hu
  rw [framed, frames] at hf
  cases hf

end Invariant

end FormRules.Search
