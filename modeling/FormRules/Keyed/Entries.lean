/-!
# Keyed entries

Operations on lists of keyed values that keep the order in which keys were first seen. Writing a
key again replaces its value in place, so the last value wins and the first position stays.
-/

namespace FormRules.Keyed

variable {κ α : Type} [DecidableEq κ]

def keys (entries : List (κ × α)) : List κ := entries.map Prod.fst

/-- The value of the first entry under a key. -/
def get? : List (κ × α) → κ → Option α
  | [], _ => none
  | entry :: rest, key => if entry.1 = key then some entry.2 else get? rest key

/-- Writes a value: in place if the key is there, at the end otherwise. -/
def put (key : κ) (value : α) : List (κ × α) → List (κ × α)
  | [] => [(key, value)]
  | entry :: rest =>
    if entry.1 = key then (key, value) :: rest else entry :: put key value rest

omit [DecidableEq κ] in
@[simp] theorem keys_nil : keys ([] : List (κ × α)) = [] := rfl

omit [DecidableEq κ] in
@[simp] theorem keys_cons (entry : κ × α) (rest : List (κ × α)) :
    keys (entry :: rest) = entry.1 :: keys rest := rfl

@[simp] theorem get?_nil (key : κ) : get? ([] : List (κ × α)) key = none := rfl

theorem get?_cons (entry : κ × α) (rest : List (κ × α)) (key : κ) :
    get? (entry :: rest) key = if entry.1 = key then some entry.2 else get? rest key := rfl

theorem keys_put (key : κ) (value : α) (entries : List (κ × α)) :
    keys (put key value entries) =
      if key ∈ keys entries then keys entries else keys entries ++ [key] := by
  induction entries with
  | nil => simp [put]
  | cons entry rest ih =>
    by_cases h : entry.1 = key
    · simp [put, h]
    · have h' : ¬key = entry.1 := fun e ↦ h e.symm
      by_cases m : key ∈ keys rest <;> simp [put, h, h', ih, m]

theorem nodup_keys_put (key : κ) (value : α) {entries : List (κ × α)}
    (h : (keys entries).Nodup) : (keys (put key value entries)).Nodup := by
  rw [keys_put]
  by_cases m : key ∈ keys entries
  · simpa [m] using h
  · rw [if_neg m]
    exact List.nodup_append.2
      ⟨h, by simp, fun a ha b hb e ↦ m (List.mem_singleton.1 hb ▸ e ▸ ha)⟩

theorem mem_put {key : κ} {value : α} {entries : List (κ × α)} {entry : κ × α}
    (h : entry ∈ put key value entries) : entry = (key, value) ∨ entry ∈ entries := by
  induction entries with
  | nil => exact .inl (List.mem_singleton.1 h)
  | cons first rest ih =>
    rw [put] at h
    split at h
    · exact (List.mem_cons.1 h).imp_right (List.mem_cons_of_mem _)
    · rcases List.mem_cons.1 h with rfl | h
      · exact .inr List.mem_cons_self
      · exact (ih h).imp_right (List.mem_cons_of_mem _)

theorem get?_put (key : κ) (value : α) (entries : List (κ × α)) (other : κ) :
    get? (put key value entries) other = if key = other then some value
      else get? entries other := by
  induction entries with
  | nil => simp [put, get?_cons]
  | cons entry rest ih =>
    by_cases h : entry.1 = key
    · by_cases e : key = other <;> simp [put, h, get?_cons, e]
    · by_cases e : entry.1 = other
      · have h' : ¬key = other := fun k ↦ h (e.trans k.symm)
        rw [put, if_neg h, get?_cons, get?_cons, if_pos e, if_pos e, if_neg h']
      · rw [put, if_neg h, get?_cons, get?_cons, if_neg e, if_neg e, ih]

theorem get?_isSome_iff {entries : List (κ × α)} {key : κ} :
    (get? entries key).isSome = true ↔ key ∈ keys entries := by
  induction entries with
  | nil => simp
  | cons entry rest ih =>
    by_cases h : entry.1 = key
    · simp [get?_cons, h]
    · simp [get?_cons, h, ih, Ne.symm h]

/-- Writes entries one after the other into an empty list. -/
def ofList (entries : List (κ × α)) : List (κ × α) :=
  entries.foldl (fun written entry ↦ put entry.1 entry.2 written) []

theorem mem_ofList {entries : List (κ × α)} {entry : κ × α} (h : entry ∈ ofList entries) :
    entry ∈ entries := by
  suffices ∀ written : List (κ × α),
      entry ∈ entries.foldl (fun written entry ↦ put entry.1 entry.2 written) written →
        entry ∈ written ∨ entry ∈ entries from
    (this [] h).resolve_left (List.not_mem_nil)
  clear h
  induction entries with
  | nil => exact fun _ h ↦ .inl h
  | cons first rest ih =>
    intro written h
    rcases ih _ h with h | h
    · rcases mem_put h with rfl | h
      · exact .inr List.mem_cons_self
      · exact .inl h
    · exact .inr (List.mem_cons_of_mem _ h)

theorem nodup_keys_ofList (entries : List (κ × α)) : (keys (ofList entries)).Nodup := by
  suffices ∀ written : List (κ × α), (keys written).Nodup →
      (keys (entries.foldl (fun written entry ↦ put entry.1 entry.2 written) written)).Nodup from
    this [] List.nodup_nil
  induction entries with
  | nil => exact fun _ h ↦ h
  | cons entry rest ih => exact fun written h ↦ ih _ (nodup_keys_put entry.1 entry.2 h)

end FormRules.Keyed
