import FormRules.Proofs.Graph.Reach
import FormRules.Proofs.Keyed.OrderedMap

/-!
# What the operations of a search change

Each operation touches a few parts of a state and leaves the others alone. Later proofs use the
operations through these equations only.
-/

namespace FormRules.Search

variable {ν : Type} [DecidableEq ν] {s : Search ν} {u v w : ν} {number : Nat}

/-- The vertices under exploration, the innermost first. -/
def framed (s : Search ν) : List ν := s.frames.map Prod.fst

/-- The vertices of finished components. -/
def finished (s : Search ν) : List ν := s.components.flatten

theorem indexOf_visit_self : (s.visit v).indexOf v = s.index.size := by
  simp [indexOf, visit, OrderedMap.get?_insert]

theorem indexOf_visit_of_ne (h : u ≠ v) : (s.visit v).indexOf u = s.indexOf u := by
  simp [indexOf, visit, OrderedMap.get?_insert, h.symm]

theorem lowOf_visit_self : (s.visit v).lowOf v = s.index.size := by
  simp [lowOf, visit, OrderedMap.get?_insert]

theorem lowOf_visit_of_ne (h : u ≠ v) : (s.visit v).lowOf u = s.lowOf u := by
  simp [lowOf, visit, OrderedMap.get?_insert, h.symm]

theorem lowOf_lower_self : (s.lower v number).lowOf v = min (s.lowOf v) number := by
  rw [lowOf, lower, OrderedMap.get?_insert, if_pos rfl, Option.getD_some]

theorem lowOf_lower_of_ne (h : u ≠ v) : (s.lower v number).lowOf u = s.lowOf u := by
  rw [lowOf, lower, OrderedMap.get?_insert, if_neg h.symm, lowOf]

theorem lowOf_lower_le : (s.lower v number).lowOf u ≤ s.lowOf u := by
  by_cases h : u = v
  · rw [h, lowOf_lower_self]
    exact Nat.min_le_left _ _
  · exact Nat.le_of_eq (lowOf_lower_of_ne h)

/-- A number that is no smaller than what is known changes nothing. -/
theorem lower_eq_self (known : v ∈ s.low.keys) (h : s.lowOf v ≤ number) :
    s.lower v number = s := by
  obtain ⟨value, found⟩ := OrderedMap.mem_keys_iff.1 known
  have : s.lowOf v = value := by rw [lowOf, found, Option.getD_some]
  rw [lower, Nat.min_eq_left h, this, OrderedMap.insert_eq_self found]

theorem popThrough_append {top below : List ν} (h : v ∉ top) :
    popThrough v (top ++ v :: below) = (top ++ [v], below) := by
  induction top with
  | nil => simp [popThrough]
  | cons x top ih =>
    rw [List.mem_cons, not_or] at h
    simp [popThrough, Ne.symm h.1, ih h.2]

/-- A component is finished by moving it from the stack to the components. -/
theorem complete_eq {top below : List ν} (stack : s.stack = top ++ v :: below)
    (onStack : s.onStack = s.stack) (nodup : s.stack.Nodup) :
    s.complete v = { s with
      stack := below
      onStack := below
      components := s.components ++ [(top ++ [v]).reverse] } := by
  rw [stack] at nodup
  have apart := List.nodup_append.1 nodup
  have fresh : v ∉ top := fun h ↦ apart.2.2 v h v List.mem_cons_self rfl
  have below_apart : ∀ x ∈ below, x ∉ top ++ [v] := by
    intro x hx popped
    rcases List.mem_append.1 popped with h | h
    · exact apart.2.2 x h x (List.mem_cons_of_mem _ hx) rfl
    · rw [List.mem_singleton] at h
      exact (List.nodup_cons.1 apart.2.1).1 (h ▸ hx)
  have gone : (top ++ [v]).filter (fun x ↦ decide (x ∉ top ++ [v])) = [] :=
    List.filter_eq_nil_iff.2 fun x popped kept ↦ (of_decide_eq_true kept) popped
  have stays : below.filter (fun x ↦ decide (x ∉ top ++ [v])) = below :=
    List.filter_eq_self.2 fun x hx ↦ decide_eq_true (below_apart x hx)
  have kept : s.onStack.filter (fun x ↦ decide (x ∉ top ++ [v])) = below := by
    rw [onStack, stack, List.append_cons top v below, List.filter_append, gone, stays,
      List.nil_append]
  simp only [complete, stack, popThrough_append fresh, kept]

end FormRules.Search
