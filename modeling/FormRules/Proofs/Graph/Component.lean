import FormRules.Proofs.Graph.Step

/-!
# The components of a graph

The search explores every declared node and is idle in between. When it ends, its finished
components share out the vertices of the graph. They are the classes of vertices that reach each
other, and each comes after those that it leads to.
-/

namespace FormRules

namespace Search

variable {ν : Type} [DecidableEq ν] {g : Graph ν} {s s' : Search ν} {v : ν}

/-- The state between two explorations. -/
structure Idle (g : Graph ν) (s : Search ν) : Prop extends Invariant g s where
  frames : s.frames = []

theorem idle_start : Idle g (start : Search ν) where
  layout := by
    refine ⟨rfl, List.nodup_nil, fun v ↦ ?_, fun v ↦ Iff.rfl, List.Sublist.refl _,
      List.Pairwise.nil, ?_, ?_⟩
    · change v ∈ [] ↔ v ∈ [] ∨ v ∈ []
      rw [or_self]
    · exact fun v hv ↦ absurd hv List.not_mem_nil
    · exact fun v hv ↦ absurd hv List.not_mem_nil
  followed v hv := absurd hv List.not_mem_nil
  lows := by
    constructor <;> intro v hv <;> cases hv
  settled := by
    refine ⟨?_, List.Pairwise.nil, ?_⟩ <;> intro v hv <;> cases hv
  frames := rfl

theorem Move.mem_index (move : Move g s s') (hv : v ∈ s.index.keys) : v ∈ s'.index.keys := by
  cases move with
  | discover => exact OrderedMap.mem_keys_insert.2 (.inr hv)
  | touch => exact hv
  | skip => exact hv
  | retreat => exact hv
  | finish => exact hv

theorem Invariant.idle_finish (h : Invariant g s) :
    Idle g (s.finish g) ∧ ∀ v ∈ s.index.keys, v ∈ (s.finish g).index.keys := by
  fun_induction finish g s with
  | case1 s frames => exact ⟨⟨h, frames⟩, fun v hv ↦ hv⟩
  | case2 s frames ih =>
    obtain ⟨idle, kept⟩ := ih (h.step frames)
    exact ⟨idle, fun v hv ↦ kept v ((h.move_step frames).mem_index hv)⟩

theorem Idle.explore (h : Idle g s) {root : ν} (hr : root ∈ g.vertices) :
    Idle g (s.explore g root) ∧ root ∈ (s.explore g root).index.keys ∧
      ∀ v ∈ s.index.keys, v ∈ (s.explore g root).index.keys := by
  rw [Search.explore]
  split
  · next met => exact ⟨h, OrderedMap.contains_eq_true_iff.1 met, fun v hv ↦ hv⟩
  · next new =>
    rw [OrderedMap.contains_eq_true_iff] at new
    obtain ⟨idle, kept⟩ := (h.visit hr new h.frames).idle_finish
    exact ⟨idle, kept root (OrderedMap.mem_keys_insert.2 (.inl rfl)),
      fun v hv ↦ kept v (OrderedMap.mem_keys_insert.2 (.inr hv))⟩

theorem Idle.foldl_explore (h : Idle g s) {roots : List ν} (hr : ∀ v ∈ roots, v ∈ g.vertices) :
    Idle g (roots.foldl (Search.explore g) s) ∧
      ∀ v, v ∈ roots ∨ v ∈ s.index.keys → v ∈ (roots.foldl (Search.explore g) s).index.keys := by
  induction roots generalizing s with
  | nil => exact ⟨h, fun v hv ↦ hv.resolve_left List.not_mem_nil⟩
  | cons root roots ih =>
    obtain ⟨idle, met, kept⟩ := h.explore (hr root List.mem_cons_self)
    obtain ⟨idle, kept'⟩ := ih idle fun v hv ↦ hr v (List.mem_cons_of_mem _ hv)
    refine ⟨idle, fun v hv ↦ kept' v ?_⟩
    rw [List.mem_cons, or_assoc] at hv
    rcases hv with rfl | hv | hv
    · exact .inr met
    · exact .inl hv
    · exact .inr (kept v hv)

end Search

namespace Graph

open Relation Search

variable {ν : Type} [DecidableEq ν] {g : Graph ν} {c d : List ν} {v w : ν}

theorem idle_search (g : Graph ν) : Idle g g.search :=
  (idle_start.foldl_explore fun _ ↦ mem_vertices_of_mem_nodes).1

theorem finished_search (g : Graph ν) : g.search.finished = g.components.flatten := rfl

theorem stack_search (g : Graph ν) : g.search.stack = [] :=
  (idle_search g).stack_eq_nil (idle_search g).frames

theorem mem_index_search : v ∈ g.search.index.keys ↔ v ∈ g.components.flatten := by
  rw [(idle_search g).layout.mem_index, stack_search, finished_search]
  exact or_iff_right List.not_mem_nil

theorem mem_components_iff : v ∈ g.components.flatten ↔ v ∈ g.vertices := by
  rw [← mem_index_search]
  constructor
  · exact (idle_search g).layout.vertices v
  · have declared : ∀ u ∈ g.nodes, u ∈ g.search.index.keys := fun u hu ↦
      (idle_start.foldl_explore fun _ ↦ mem_vertices_of_mem_nodes).2 u (.inl hu)
    rw [mem_vertices_iff]
    rintro (hv | ⟨u, hu, edge⟩)
    · exact declared v hv
    · refine (idle_search g).followed u (declared u hu) v ⟨edge, fun next hn ↦ ?_⟩
      rw [(idle_search g).frames] at hn
      cases hn

theorem nodup_components (g : Graph ν) : g.components.flatten.Nodup := by
  have nodup := (idle_search g).layout.nodup
  rwa [stack_search, List.nil_append] at nodup

/-- No path leads from a component to a later one. -/
theorem pairwise_components (g : Graph ν) :
    g.components.Pairwise fun c d ↦ ∀ v ∈ c, ∀ w ∈ d, ¬g.Reaches v w :=
  (idle_search g).settled.apart

theorem reaches_of_mem_components (hc : c ∈ g.components) (hv : v ∈ c) (hw : w ∈ c) :
    g.Reaches v w :=
  (idle_search g).settled.strong c hc v hv w hw

theorem exists_component (hv : v ∈ g.vertices) : ∃ c ∈ g.components, v ∈ c :=
  List.mem_flatten.1 (mem_components_iff.2 hv)

theorem eq_of_reaches (hc : c ∈ g.components) (hd : d ∈ g.components) (hv : v ∈ c) (hw : w ∈ d)
    (there : g.Reaches v w) (back : g.Reaches w v) : c = d := by
  have apart := List.pairwise_iff_getElem.1 (pairwise_components g)
  obtain ⟨i, hi, rfl⟩ := List.getElem_of_mem hc
  obtain ⟨j, hj, rfl⟩ := List.getElem_of_mem hd
  rcases Nat.lt_trichotomy i j with lt | rfl | lt
  · exact absurd there (apart i j hi hj lt v hv w hw)
  · rfl
  · exact absurd back (apart j i hj hi lt w hw v hv)

end Graph

end FormRules
