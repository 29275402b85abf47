import FormRules.Keyed.OrderedMap

/-!
# Laws of ordered maps

Writing what is there already changes nothing, entries with distinct keys are written as they stand,
and a lookup finds exactly the entries.
-/

namespace FormRules

namespace Keyed

variable {κ α β : Type} [DecidableEq κ] {key other : κ} {value : α} {entries : List (κ × α)}

theorem put_eq_self (h : get? entries key = some value) : put key value entries = entries := by
  induction entries with
  | nil => cases h
  | cons entry rest ih =>
    rw [get?_cons] at h
    rw [put]
    split at h
    · next e =>
      rw [if_pos e]
      cases h
      rw [← e]
    · next e => rw [if_neg e, ih h]

theorem put_of_notMem (h : key ∉ keys entries) :
    put key value entries = entries ++ [(key, value)] := by
  induction entries with
  | nil => rfl
  | cons entry rest ih =>
    rw [keys_cons, List.mem_cons, not_or] at h
    rw [put, if_neg (Ne.symm h.1), ih h.2, List.cons_append]

theorem mem_keys_put :
    other ∈ keys (put key value entries) ↔ other = key ∨ other ∈ keys entries := by
  rw [keys_put]
  split
  · next h =>
    constructor
    · exact .inr
    · rintro (rfl | h')
      · exact h
      · exact h'
  · rw [List.mem_append, List.mem_singleton, or_comm]

theorem mem_keys_ofList : key ∈ keys (ofList entries) ↔ key ∈ keys entries := by
  suffices ∀ written : List (κ × α),
      key ∈ keys (entries.foldl (fun written entry ↦ put entry.1 entry.2 written) written) ↔
        key ∈ keys written ∨ key ∈ keys entries from
    (this []).trans (or_iff_right List.not_mem_nil)
  induction entries with
  | nil => exact fun written ↦ (or_iff_left List.not_mem_nil).symm
  | cons entry rest ih =>
    intro written
    rw [List.foldl_cons, ih, mem_keys_put, keys_cons, List.mem_cons, or_assoc, or_left_comm]

theorem ofList_eq_self (h : (keys entries).Nodup) : ofList entries = entries := by
  suffices ∀ written : List (κ × α), (keys (written ++ entries)).Nodup →
      entries.foldl (fun written entry ↦ put entry.1 entry.2 written) written =
        written ++ entries from this [] h
  clear h
  induction entries with
  | nil => exact fun written _ ↦ (List.append_nil written).symm
  | cons entry rest ih =>
    intro written nodup
    have fresh : entry.1 ∉ keys written := by
      rw [keys, List.map_append, List.map_cons] at nodup
      exact fun h ↦ (List.nodup_append.1 nodup).2.2 _ h _ List.mem_cons_self rfl
    rw [List.foldl_cons, put_of_notMem fresh, ih, List.append_assoc, List.singleton_append]
    rwa [List.append_assoc, List.singleton_append]

theorem mem_of_get? (h : get? entries key = some value) : (key, value) ∈ entries := by
  induction entries with
  | nil => cases h
  | cons entry rest ih =>
    rw [get?_cons] at h
    split at h
    · next e =>
      cases h
      rw [← e]
      exact List.mem_cons_self
    · exact List.mem_cons_of_mem _ (ih h)

theorem get?_of_mem (nodup : (keys entries).Nodup) (h : (key, value) ∈ entries) :
    get? entries key = some value := by
  induction entries with
  | nil => cases h
  | cons entry rest ih =>
    rw [keys_cons, List.nodup_cons] at nodup
    rw [get?_cons]
    rcases List.mem_cons.1 h with rfl | h
    · exact if_pos rfl
    · have ne : entry.1 ≠ key := fun e ↦
        nodup.1 (e ▸ List.mem_map_of_mem (f := Prod.fst) h)
      rw [if_neg ne]
      exact ih nodup.2 h

@[simp] theorem get?_append (more : List (κ × α)) :
    get? (entries ++ more) key = (get? entries key).or (get? more key) := by
  induction entries with
  | nil => rfl
  | cons entry rest ih =>
    rw [List.cons_append, get?_cons, get?_cons, ih]
    split <;> rfl

theorem filter_ne_eq_self (absent : get? entries key = none) :
    (entries.filter fun entry ↦ entry.1 ≠ key) = entries := by
  apply List.filter_eq_self.2
  intro entry member
  apply decide_eq_true
  rintro rfl
  have present := get?_isSome_iff.2 (List.mem_map_of_mem (f := Prod.fst) member)
  rw [absent] at present
  cases present

theorem get?_map (f : α → β) :
    get? (entries.map fun entry ↦ (entry.1, f entry.2)) key = (get? entries key).map f := by
  induction entries with
  | nil => rfl
  | cons entry rest ih =>
    rw [List.map_cons, get?_cons, get?_cons, ih]
    split <;> rfl

omit [DecidableEq κ] in
theorem keys_map (f : α → β) :
    keys (entries.map fun entry ↦ (entry.1, f entry.2)) = keys entries := by
  rw [keys, keys, List.map_map]
  rfl

end Keyed

namespace OrderedMap

variable {κ α : Type} [DecidableEq κ] {m : OrderedMap κ α} {key other : κ} {value : α}

omit [DecidableEq κ] in
theorem eq_empty (h : m.isEmpty = true) : m = empty := ext (List.isEmpty_iff.1 h)

theorem ofList_entries (m : OrderedMap κ α) : ofList m.entries = m :=
  ext (Keyed.ofList_eq_self m.nodup)

theorem insert_eq_self (h : m.get? key = some value) : m.insert key value = m :=
  ext (Keyed.put_eq_self h)

theorem mem_keys_insert : other ∈ (m.insert key value).keys ↔ other = key ∨ other ∈ m.keys :=
  Keyed.mem_keys_put

theorem size_insert (value : α) (h : key ∉ m.keys) : (m.insert key value).size = m.size + 1 := by
  have length_eq : ∀ n : OrderedMap κ α, n.size = n.keys.length := fun n ↦ by
    rw [size, keys, Keyed.keys, List.length_map]
  rw [length_eq, length_eq, keys_insert, if_neg h, List.length_append, List.length_singleton]

theorem mem_keys_iff : key ∈ m.keys ↔ ∃ value, m.get? key = some value := by
  rw [← contains_eq_true_iff, contains, Option.isSome_iff_exists]

theorem mem_entries_iff : (key, value) ∈ m.entries ↔ m.get? key = some value :=
  ⟨Keyed.get?_of_mem m.nodup, Keyed.mem_of_get?⟩

/-- A lookup does not depend on the order of the entries. -/
theorem get?_eq_of_perm {n : OrderedMap κ α} (perm : m.entries.Perm n.entries) (key : κ) :
    m.get? key = n.get? key := by
  apply Option.ext
  intro value
  exact mem_entries_iff.symm.trans (perm.mem_iff.trans mem_entries_iff)

omit [DecidableEq κ] in
theorem mem_keys_of_perm {n : OrderedMap κ α} (perm : m.entries.Perm n.entries) :
    key ∈ m.keys ↔ key ∈ n.keys :=
  (perm.map Prod.fst).mem_iff

end OrderedMap

end FormRules
