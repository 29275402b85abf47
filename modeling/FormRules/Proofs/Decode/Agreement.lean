import FormRules.Proofs.Decode.Record
import Mathlib.Data.List.Forall2

/-!
# Reading alike values

A reader makes the same of two values if it makes the same of the parts that it looks at. For a
record these are what stands under the keys of its members, so neither the order of entries nor
unknown keys among them count. Of an array or a map these are all elements in their order.
-/

namespace FormRules

namespace Keyed

variable {κ α β : Type} [DecidableEq κ] {key other : κ}

theorem get?_rel {R : κ → α → β → Prop} {entries : List (κ × α)} {others : List (κ × β)}
    (h : List.Forall₂ (fun entry other ↦ other.1 = entry.1 ∧ R entry.1 entry.2 other.2)
      entries others) (key : κ) : Option.Rel (R key) (get? entries key) (get? others key) := by
  induction h with
  | nil => exact .none
  | @cons entry other _ _ same _ ih =>
    obtain ⟨same_key, related⟩ := same
    rw [get?_cons, get?_cons, same_key]
    split
    · next found => exact .some (found ▸ related)
    · exact ih

/-- Neither the order of entries nor those under other keys count for what is found under a key. -/
theorem get?_of_arranged {kept further arranged : List (κ × α)}
    (perm : arranged.Perm (kept ++ further)) (nodup : (keys arranged).Nodup)
    (unknown : key ∉ keys further) : get? arranged key = get? kept key := by
  have nodup' : (keys (kept ++ further)).Nodup := (perm.map Prod.fst).nodup_iff.1 nodup
  have absent : get? further key = none :=
    Option.not_isSome_iff_eq_none.1 fun found ↦ unknown (get?_isSome_iff.1 found)
  have same : get? arranged key = get? (kept ++ further) key :=
    OrderedMap.get?_eq_of_perm (m := ⟨arranged, nodup⟩) (n := ⟨kept ++ further, nodup'⟩) perm key
  rw [same, get?_append, absent, Option.or_none]

theorem get?_filter_ne {entries : List (κ × α)} (h : key ≠ other) :
    get? (entries.filter (·.1 ≠ other)) key = get? entries key := by
  induction entries with
  | nil => rfl
  | cons entry rest ih =>
    rw [List.filter_cons, get?_cons]
    by_cases dropped : entry.1 = other
    · have differs : entry.1 ≠ key := fun e ↦ h (e.symm.trans dropped)
      rw [if_neg (by simpa using dropped), if_neg differs, ih]
    · rw [if_pos (by simpa using dropped), get?_cons, ih]

end Keyed

namespace Decode

variable {α β : Type} {R : String → Json → Json → Prop} {members : List String}
  {value other : Json} {setting : Setting}

/-! ## Outcomes -/

/-- What an outcome gives is given by another one too. -/
def Kept (outcome other : Except Fault α) : Prop := ∀ found, outcome = .ok found → other = .ok found

theorem Kept.refl (outcome : Except Fault α) : Kept outcome outcome := fun _ h ↦ h

theorem Kept.bind {x y : Except Fault α} {next next' : α → Except Fault β} (first : Kept x y)
    (then_ : ∀ a, Kept (next a) (next' a)) : Kept (x >>= next) (y >>= next') := by
  cases x with
  | error fault => exact fun _ h ↦ nomatch h
  | ok a =>
    rw [first a rfl]
    exact then_ a

theorem Kept.map {x y : Except Fault α} (kept : Kept x y) (f : α → β) :
    Kept (f <$> x) (f <$> y) := by
  cases x with
  | error fault => exact fun _ h ↦ nomatch h
  | ok a =>
    rw [kept a rfl]
    exact .refl _

theorem kept_mapM {γ : Type} {read read' : γ → Except Fault α} {values others : List γ}
    (h : List.Forall₂ (fun value other ↦ Kept (read value) (read' other)) values others) :
    Kept (values.mapM read) (others.mapM read') := by
  induction h with
  | nil => exact .refl _
  | cons first _ ih =>
    rw [List.mapM_cons, List.mapM_cons]
    exact first.bind fun _ ↦ ih.bind fun _ ↦ .refl _

theorem kept_items {read : Json → Except Fault α} {values others : List Json}
    (h : List.Forall₂ (fun value other ↦ Kept (read value) (read other)) values others) :
    Kept (items (.array values) fun item _ ↦ read item)
      (items (.array others) fun item _ ↦ read item) := by
  rw [items_array, items_array]
  exact kept_mapM h

theorem kept_entries {read : Json → Except Fault α} {entries others : List (String × Json)}
    (h : List.Forall₂ (fun entry other ↦ other.1 = entry.1 ∧ Kept (read entry.2) (read other.2))
      entries others) :
    Kept (Decode.entries (.object entries) fun part _ ↦ read part)
      (Decode.entries (.object others) fun part _ ↦ read part) := by
  rw [entries_object, entries_object]
  refine kept_mapM (h.imp fun entry other ⟨same_key, kept⟩ ↦ ?_)
  rw [same_key]
  exact kept.map _

/-! ## Readings -/

/-- What a reading gives is given by another one too. -/
def Reading.Kept (reading other : Reading α) : Prop :=
  ∀ found, reading = .ok found → other = .ok found

namespace Reading.Kept

theorem refl (reading : Reading α) : reading.Kept reading := fun _ h ↦ h

theorem atPlace {x y : Except Fault α} (kept : Decode.Kept x y) (place place' : Nat) :
    (Reading.atPlace place x).Kept (Reading.atPlace place' y) := by
  cases x with
  | error fault => exact fun _ h ↦ nomatch h
  | ok a =>
    rw [kept a rfl]
    exact fun _ h ↦ h

theorem map {x y : Reading α} (kept : x.Kept y) (f : α → β) : (f <$> x).Kept (f <$> y) := by
  cases x with
  | failed place fault => exact fun _ h ↦ nomatch h
  | ok a =>
    rw [kept a rfl]
    exact refl _

theorem seq {f g : Reading (α → β)} {x y : Reading α} (first : f.Kept g) (second : x.Kept y) :
    (f <*> x).Kept (g <*> y) := by
  intro b h
  obtain ⟨made, a, f_ok, x_ok, rfl⟩ := Reading.seq_eq_ok_iff.1 h
  rw [first made f_ok, second a x_ok]
  rfl

end Reading.Kept

/-! ## Records -/

namespace Record

variable {bound bound' : Nat} {r : Record bound} {r' : Record bound'} {name : String}

/-- What stands under the key of a member. -/
def part? (r : Record bound) (name : String) : Option Json :=
  Keyed.get? (r.parts.map fun part ↦ (part.1, part.2.1)) name

/-- Two records have related parts under the keys of some members. -/
structure Alike (R : String → Json → Json → Prop) (members : List String) (r : Record bound)
    (r' : Record bound') : Prop where
  found : ∀ name ∈ members, Option.Rel (R name) (r.part? name) (r'.part? name)
  complete : r.surplus = none → r'.surplus = none

namespace Alike

theorem widen {wider wider' : Nat} (alike : Alike R members r r') (h : bound ≤ wider)
    (h' : bound' ≤ wider') : Alike R members (r.widen h) (r'.widen h') := by
  refine ⟨fun name mem ↦ ?_, alike.complete⟩
  rw [part?, part?, Record.widen, Record.widen, List.map_map, List.map_map]
  exact alike.found name mem

theorem find?_cases (alike : Alike R members r r') (mem : name ∈ members) :
    (find? name 0 r.parts = none ∧ find? name 0 r'.parts = none) ∨
    ∃ place place' part part', find? name 0 r.parts = some (place, part) ∧
      find? name 0 r'.parts = some (place', part') ∧ R name part.1 part'.1 := by
  have related := alike.found name mem
  generalize found : r.part? name = part at related
  generalize found' : r'.part? name = part' at related
  cases related with
  | none => exact .inl ⟨find?_eq_none found 0, find?_eq_none found' 0⟩
  | some related =>
    obtain ⟨place, small, located⟩ := exists_find?_eq_some found 0
    obtain ⟨place', small', located'⟩ := exists_find?_eq_some found' 0
    exact .inr ⟨place, place', _, _, located, located', related⟩

theorem required (alike : Alike R members r r') (name : String) (mem : name ∈ members)
    (read : Json → Except Fault α)
    (kept : ∀ part part', R name part part' → Kept (read part) (read part')) :
    (r.required name fun part _ ↦ read part).Kept (r'.required name fun part _ ↦ read part) := by
  unfold Record.required
  rcases alike.find?_cases mem with
    ⟨absent, -⟩ | ⟨place, place', part, part', located, located', related⟩
  · rw [absent]
    exact fun _ h ↦ nomatch h
  · rw [located, located']
    exact .atPlace (kept _ _ related) place place'

theorem optional (alike : Alike R members r r') (name : String) (mem : name ∈ members)
    (default : α) (read : Json → Except Fault α)
    (kept : ∀ part part', R name part part' → Kept (read part) (read part')) :
    (r.optional name default fun part _ ↦ read part).Kept
      (r'.optional name default fun part _ ↦ read part) := by
  unfold Record.optional
  rcases alike.find?_cases mem with
    ⟨absent, absent'⟩ | ⟨place, place', part, part', located, located', related⟩
  · rw [absent, absent']
    exact .refl _
  · rw [located, located']
    exact .atPlace (kept _ _ related) place place'

theorem close (alike : Alike R members r r') {reading reading' : Reading α}
    (kept : reading.Kept reading') : Kept (r.close reading) (r'.close reading') := by
  unfold Record.close
  cases reading with
  | failed place fault => exact fun _ h ↦ nomatch h
  | ok a =>
    rw [kept a rfl]
    cases surplus : r.surplus with
    | some fault => exact fun _ h ↦ nomatch h
    | none =>
      rw [alike.complete surplus]
      exact .refl _

end Alike

end Record

/-! ## Tagged values -/

namespace TaggedType

variable {κ : Type} {type : TaggedType κ} {given rest : Json} {case : κ}

/-- A tag that is read on its own selects the same case within an artifact. -/
theorem tag_embedded (h : type.tag setting given = .ok case) :
    type.tag .embedded given = .ok case := by
  cases setting with
  | embedded => exact h
  | alone =>
    cases given with
    | text name => exact h
    | null | boolean | number | array | object => simp only [tag, reduceCtorEq] at h

theorem exists_split_object_iff {entries : List (String × Json)} :
    (∃ s, type.split setting (.object entries) = .ok s ∧ s.case = case ∧ s.rest = rest) ↔
      ∃ given, Keyed.get? entries type.key = some given ∧ type.tag setting given = .ok case ∧
        .object (entries.filter (·.1 ≠ type.key)) = rest := by
  simp only [TaggedType.split]
  cases Keyed.get? entries type.key with
  | none =>
    refine iff_of_false ?_ ?_
    · rintro ⟨_, ⟨⟩, -⟩
    · rintro ⟨_, ⟨⟩, -⟩
  | some given =>
    dsimp only
    cases selected : type.tag setting given with
    | error fault =>
      refine iff_of_false ?_ ?_
      · rintro ⟨_, ⟨⟩, -⟩
      · rintro ⟨_, ⟨⟩, ok, -⟩
        cases selected.symm.trans ok
    | ok found =>
      constructor
      · rintro ⟨s, ok, rfl, rfl⟩
        obtain rfl := Except.ok.inj ok
        exact ⟨given, rfl, selected, rfl⟩
      · rintro ⟨_, ⟨⟩, ok, rfl⟩
        obtain rfl := Except.ok.inj (selected.symm.trans ok)
        exact ⟨_, rfl, rfl, rfl⟩

theorem exists_split_array_iff {items : List Json} :
    (∃ s, type.split setting (.array (given :: items)) = .ok s ∧ s.case = case ∧ s.rest = rest) ↔
      type.tag setting given = .ok case ∧ .array items = rest := by
  simp only [TaggedType.split]
  cases type.tag setting given with
  | error fault =>
    refine iff_of_false ?_ ?_
    · rintro ⟨_, ⟨⟩, -⟩
    · rintro ⟨⟨⟩, -⟩
  | ok found =>
    constructor
    · rintro ⟨s, ok, rfl, rfl⟩
      obtain rfl := Except.ok.inj ok
      exact ⟨rfl, rfl⟩
    · rintro ⟨ok, rfl⟩
      obtain rfl := Except.ok.inj ok
      exact ⟨_, rfl, rfl, rfl⟩

end TaggedType

/-! ## Values with alike members -/

/-- Two values are written in the same way and have related parts under the keys of some members. An
array has its members in their order. -/
inductive Alike (R : String → Json → Json → Prop) (members : List String) : Json → Json → Prop
  | object {entries others : List (String × Json)}
      (found : ∀ name ∈ members,
        Option.Rel (R name) (Keyed.get? entries name) (Keyed.get? others name)) :
      Alike R members (.object entries) (.object others)
  | array {items others : List Json} (long : others.length = items.length)
      (found : List.Forall₂ (fun entry other ↦ other.1 = entry.1 ∧ R entry.1 entry.2 other.2)
        (members.zip items) (members.zip others)) :
      Alike R members (.array items) (.array others)

theorem zip_itemsWithin_map_val (members : List String) (items : List Json) :
    (members.zip (Json.itemsWithin items)).map (fun part ↦ (part.1, part.2.1)) =
      members.zip items := by
  conv_rhs => rw [← itemsWithin_map_val items, List.zip_map_right]
  rfl

namespace Alike

/-- What is made of the records of two alike values is the same if it is for alike records. -/
theorem bind_record {type : RecordType} (alike : Alike R type.members value other)
    {next : Record value.size → Except Fault α} {next' : Record other.size → Except Fault α}
    (h : ∀ r r', Record.Alike R type.members r r' → Kept (next r) (next' r')) :
    Kept (Record.ofJson type setting value >>= next)
      (Record.ofJson type setting other >>= next') := by
  cases alike with
  | object found =>
    refine h _ _ ⟨fun name mem ↦ ?_, fun complete ↦ complete⟩
    rw [Record.part?, Record.part?, entriesWithin_map_val, entriesWithin_map_val]
    exact found name mem
  | @array items others long found =>
    refine h _ _ ⟨fun name _ ↦ ?_, fun complete ↦ ?_⟩
    · rw [Record.part?, Record.part?, zip_itemsWithin_map_val, zip_itemsWithin_map_val]
      exact Keyed.get?_rel found name
    · rw [long]
      exact complete

/-- Alike values have the same tag and are alike without it. -/
theorem exists_split {κ : Type} {type : TaggedType κ}
    (alike : Alike R (type.key :: members) value other)
    (tag : ∀ given given', R type.key given given' → given' = given) (fresh : type.key ∉ members)
    {s : TaggedType.Split κ value.size} (split : type.split setting value = .ok s) :
    ∃ s', type.split setting other = .ok s' ∧ s'.case = s.case ∧
      Alike R members s.rest s'.rest := by
  cases alike with
  | @object entries others found =>
    obtain ⟨given, written, selected, left⟩ :=
      TaggedType.exists_split_object_iff.1 ⟨s, split, rfl, rfl⟩
    have related := found type.key List.mem_cons_self
    rw [written] at related
    generalize written' : Keyed.get? others type.key = part at related
    cases related with
    | some related =>
      obtain ⟨s', split', case, left'⟩ := TaggedType.exists_split_object_iff.2
        ⟨_, written', (tag _ _ related).symm ▸ selected, rfl⟩
      refine ⟨s', split', case, ?_⟩
      rw [← left, left']
      refine .object fun name mem ↦ ?_
      have ne : name ≠ type.key := fun e ↦ fresh (e ▸ mem)
      rw [Keyed.get?_filter_ne ne, Keyed.get?_filter_ne ne]
      exact found name (List.mem_cons_of_mem _ mem)
  | @array items others long found =>
    match items, others, long with
    | [], [], _ => cases split
    | given :: items, given' :: others, long =>
      obtain ⟨selected, left⟩ := TaggedType.exists_split_array_iff.1 ⟨s, split, rfl, rfl⟩
      rw [List.zip_cons_cons, List.zip_cons_cons, List.forall₂_cons] at found
      obtain ⟨⟨-, related⟩, found⟩ := found
      obtain rfl : given' = given := tag _ _ related
      obtain ⟨s', split', case, left'⟩ := TaggedType.exists_split_array_iff.2 ⟨selected, rfl⟩
      refine ⟨s', split', case, ?_⟩
      rw [← left, left']
      exact .array (Nat.succ.inj long) found

/-- What is made of the tag and the members of two alike values is the same if it is for alike
members of the same case. -/
theorem bind_split {κ : Type} {type : TaggedType κ}
    (alike : Alike R (type.key :: members) value other)
    (tag : ∀ given given', R type.key given given' → given' = given) (fresh : type.key ∉ members)
    {next : TaggedType.Split κ value.size → Except Fault α}
    {next' : TaggedType.Split κ other.size → Except Fault α}
    (h : ∀ s s', type.split setting value = .ok s → s'.case = s.case →
      Alike R members s.rest s'.rest → Kept (next s) (next' s')) :
    Kept (type.split setting value >>= next) (type.split setting other >>= next') := by
  cases split : type.split setting value with
  | error fault => exact fun _ h ↦ nomatch h
  | ok s =>
    obtain ⟨s', split', case, alike'⟩ := alike.exists_split tag fresh split
    rw [split']
    exact h s s' split case alike'

end Alike

end Decode

end FormRules
