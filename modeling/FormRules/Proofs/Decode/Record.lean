import FormRules.Decode.Tagged
import FormRules.Proofs.Keyed.OrderedMap

/-!
# Reading what is written as an object

Of an object, a record reads each member from the first entry under its key and ignores all other
entries. A reader is given a proof that its part is smaller than the whole, but the readers here
need it for their recursion only.
-/

namespace FormRules.Decode

variable {α β : Type}

/-! ## Arrays and objects -/

theorem itemsWithin_map_val (items : List Json) :
    (Json.itemsWithin items).map Subtype.val = items := by
  rw [Json.itemsWithin, List.map_map]
  exact List.attach_map_subtype_val items

theorem entriesWithin_map_val (entries : List (String × Json)) :
    (Json.entriesWithin entries).map (fun entry ↦ (entry.1, entry.2.1)) = entries := by
  rw [Json.entriesWithin, List.map_map]
  exact List.attach_map_subtype_val entries

theorem mapM_eq_ok {read : α → Except Fault β} {encode : β → α} {values : List β}
    (h : ∀ value ∈ values, read (encode value) = .ok value) :
    (values.map encode).mapM read = .ok values := by
  induction values with
  | nil => rfl
  | cons value rest ih =>
    rw [List.forall_mem_cons] at h
    rw [List.map_cons, List.mapM_cons, h.1, ih h.2]
    rfl

theorem items_array (read : Json → Except Fault α) (values : List Json) :
    items (.array values) (fun item _ ↦ read item) = values.mapM read := by
  have plain : items (.array values) (fun item _ ↦ read item) =
      ((Json.itemsWithin values).map Subtype.val).mapM read := by
    rw [List.mapM_map]
    rfl
  rw [plain, itemsWithin_map_val]

theorem entries_object (read : Json → Except Fault α) (written : List (String × Json)) :
    entries (.object written) (fun part _ ↦ read part) =
      written.mapM fun entry ↦ (fun part ↦ (entry.1, part)) <$> read entry.2 := by
  let readEntry (entry : String × Json) : Except Fault (String × α) :=
    (fun part ↦ (entry.1, part)) <$> read entry.2
  have plain : entries (.object written) (fun part _ ↦ read part) =
      ((Json.entriesWithin written).map fun entry ↦ (entry.1, entry.2.1)).mapM readEntry := by
    rw [List.mapM_map]
    rfl
  rw [plain, entriesWithin_map_val]

/-- An array of encoded values is read if each of them is. -/
theorem items_eq_ok {read : Json → Except Fault α} {encode : α → Json} {values : List α}
    (h : ∀ value ∈ values, read (encode value) = .ok value) :
    items (.array (values.map encode)) (fun item _ ↦ read item) = .ok values := by
  rw [items_array]
  exact mapM_eq_ok h

/-- An object of encoded values is read if each of them is. -/
theorem entries_eq_ok {read : Json → Except Fault α} {encode : α → Json}
    {values : List (String × α)} (h : ∀ entry ∈ values, read (encode entry.2) = .ok entry.2) :
    entries (.object (values.map fun entry ↦ (entry.1, encode entry.2)))
      (fun part _ ↦ read part) = .ok values := by
  rw [entries_object]
  apply mapM_eq_ok
  intro entry member
  rw [h entry member]
  rfl

/-! ## Records -/

namespace Record

variable {bound : Nat} {r : Record bound} {entries : List (String × Json)} {name : String}
  {part : Json} {value : α}

/-- A record is made of the entries of an object. -/
structure Spells (r : Record bound) (entries : List (String × Json)) : Prop where
  parts : r.parts.map (fun part ↦ (part.1, part.2.1)) = entries
  complete : r.surplus = none

/-- An object is read as a record if what is made of any record of its entries is. -/
theorem ofJson_bind_eq_ok {type : RecordType} {setting : Setting}
    {next : Record (Json.object entries).size → Except Fault α}
    (h : ∀ r : Record (Json.object entries).size, r.Spells entries → next r = .ok value) :
    (ofJson type setting (.object entries) >>= next) = .ok value :=
  h _ ⟨entriesWithin_map_val entries, rfl⟩

theorem find?_eq_none {parts : List (String × Json.Within bound)}
    (absent : Keyed.get? (parts.map fun part ↦ (part.1, part.2.1)) name = none) (place : Nat) :
    find? name place parts = none := by
  induction parts generalizing place with
  | nil => rfl
  | cons first rest ih =>
    rw [List.map_cons, Keyed.get?_cons] at absent
    split at absent
    · cases absent
    · next differs => rw [find?, if_neg differs, ih absent]

theorem exists_find?_eq_some {parts : List (String × Json.Within bound)}
    (found : Keyed.get? (parts.map fun part ↦ (part.1, part.2.1)) name = some part) (place : Nat) :
    ∃ at_place small, find? name place parts = some (at_place, ⟨part, small⟩) := by
  induction parts generalizing place with
  | nil => cases found
  | cons first rest ih =>
    rw [List.map_cons, Keyed.get?_cons] at found
    rw [find?]
    split at found
    · next same =>
      cases found
      exact ⟨place, first.2.2, if_pos same⟩
    · next differs =>
      rw [if_neg differs]
      exact ih found (place + 1)

namespace Spells

theorem widen {wider : Nat} (spells : r.Spells entries) (h : bound ≤ wider) :
    (r.widen h).Spells entries := by
  refine ⟨?_, spells.complete⟩
  rw [Record.widen, List.map_map]
  exact spells.parts

theorem required (spells : r.Spells entries) (read : Json → Except Fault α)
    (found : Keyed.get? entries name = some part) (reads : read part = .ok value) :
    r.required name (fun part _ ↦ read part) = .ok value := by
  rw [← spells.parts] at found
  obtain ⟨place, small, located⟩ := exists_find?_eq_some found 0
  rw [Record.required, located]
  dsimp only
  rw [reads, Reading.atPlace]

theorem optional {default : α} (spells : r.Spells entries) (read : Json → Except Fault α)
    (present : ∀ part, Keyed.get? entries name = some part → read part = .ok value)
    (absent : Keyed.get? entries name = none → default = value) :
    r.optional name default (fun part _ ↦ read part) = .ok value := by
  rw [← spells.parts] at present absent
  rw [Record.optional]
  cases written : Keyed.get? (r.parts.map fun part ↦ (part.1, part.2.1)) name with
  | none => rw [find?_eq_none written, absent written]
  | some part =>
    obtain ⟨place, small, located⟩ := exists_find?_eq_some written 0
    rw [located]
    dsimp only
    rw [present part written, Reading.atPlace]

theorem given {default : α} (spells : r.Spells entries) (read : Json → Except Fault α)
    (found : Keyed.get? entries name = some part) (reads : read part = .ok value) :
    r.optional name default (fun part _ ↦ read part) = .ok value := by
  apply spells.optional
  · intro other present
    cases found.symm.trans present
    exact reads
  · intro absent
    cases found.symm.trans absent

/-- A member that is written if it is there, and read as absent if it is not. -/
theorem option {encode : α → Json} {value : Option α} (spells : r.Spells entries)
    (read : Json → Except Fault (Option α)) (written : Keyed.get? entries name = value.map encode)
    (reads : ∀ value, read (encode value) = .ok (some value)) :
    r.optional name none (fun part _ ↦ read part) = .ok value := by
  apply spells.optional
  · intro part found
    obtain ⟨given, rfl, rfl⟩ := Option.map_eq_some_iff.1 (written.symm.trans found)
    exact reads given
  · intro absent
    exact (Option.map_eq_none_iff.1 (written.symm.trans absent)).symm

/-- A list or map that is written unless it is empty, and read as empty if it is not there. -/
theorem unlessEmpty {empty : Prop} [Decidable empty] {default : α} (spells : r.Spells entries)
    (read : Json → Except Fault α)
    (written : Keyed.get? entries name = if ¬empty then some part else none)
    (reads : read part = .ok value) (unwritten : empty → value = default) :
    r.optional name default (fun part _ ↦ read part) = .ok value := by
  apply spells.optional
  · intro found present
    rw [written] at present
    split at present
    · cases present
      exact reads
    · cases present
  · intro absent
    rw [written] at absent
    split at absent
    · cases absent
    · next is_empty => exact (unwritten (Decidable.not_not.1 is_empty)).symm

theorem close (spells : r.Spells entries) (value : α) : r.close (.ok value) = .ok value := by
  unfold Record.close
  rw [spells.complete]
  rfl

end Spells

end Record

/-! ## Tagged values -/

/-- A tag that is written first selects its case, and all other entries are left. -/
theorem TaggedType.split_bind_eq_ok {κ : Type} {type : TaggedType κ} {setting : Setting}
    {name : String} {case : κ} {rest : List (String × Json)} {value : α}
    {next : Split κ (Json.object ((type.key, .text name) :: rest)).size → Except Fault α}
    (known : type.cases.lookup name = some case) (untagged : Keyed.get? rest type.key = none)
    (h : ∀ smaller, next ⟨case, .object rest, smaller⟩ = .ok value) :
    (type.split setting (.object ((type.key, .text name) :: rest)) >>= next) = .ok value := by
  have selected : type.tag setting (.text name) = .ok case := by
    cases setting <;> simp [tag, known]
  have given : Keyed.get? ((type.key, .text name) :: rest) type.key = some (.text name) :=
    if_pos rfl
  have left : ((type.key, .text name) :: rest).filter (·.1 ≠ type.key) = rest := by
    rw [List.filter_cons_of_neg (by simp), Keyed.filter_ne_eq_self untagged]
  have smaller := sizeEntries_filter_le (·.1 ≠ type.key) ((type.key, .text name) :: rest)
  rw [left] at smaller
  have split_eq : type.split setting (.object ((type.key, .text name) :: rest)) =
      .ok ⟨case, .object rest, Nat.succ_le_succ smaller⟩ := by
    simp only [split, given, left]
    rw [selected]
    rfl
  rw [split_eq]
  exact h (Nat.succ_le_succ smaller)

end FormRules.Decode
