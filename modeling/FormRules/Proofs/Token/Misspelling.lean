import FormRules.Proofs.Token.Layout

/-!
# Where texts are misspelt

What stands wrong within a lexeme is its first character or a letter that touches a number. Neither
is white space, and so an error of the reader is placed at a character that can be seen, as every
token is.
-/

namespace FormRules.Token

open FormRules.Text

/-- A character that is not white space stands at a place of a text. -/
def Marked (text : List Char) (place : Nat) : Prop :=
  ∃ c, text[place]? = some c ∧ isBlank c = false

variable {c : Char} {text before rest last : List Char} {offset place : Nat} {fault : Misspelling}

theorem marked_zero (unblank : isBlank c = false) : Marked (c :: rest) 0 := ⟨c, rfl, unblank⟩

theorem Marked.lt_length (h : Marked text place) : place < text.length := by
  obtain ⟨c, stands, -⟩ := h
  obtain ⟨inside, -⟩ := List.getElem?_eq_some_iff.mp stands
  exact inside

theorem Marked.append_left (before : List Char) (h : Marked text place) :
    Marked (before ++ text) (before.length + place) := by
  obtain ⟨c, stands, unblank⟩ := h
  refine ⟨c, ?_, unblank⟩
  rw [List.getElem?_append_right (Nat.le_add_right _ _), Nat.add_sub_cancel_left, stands]

theorem unblank_of_touches (h : (isLetter c || c = '_') = true) : isBlank c = false := by
  rw [Bool.eq_false_iff]
  intro blank
  have begins : beginsWord c = true := by
    rw [beginsWord, h]
    rfl
  rw [(beginsWord_apart begins).1] at blank
  cases blank

/-- The place of a misspelling within its lexeme. -/
theorem marked_of_lexeme (unblank : isBlank c = false) (h : lexeme c rest = .error fault) :
    Marked (c :: rest) fault.ahead := by
  unfold lexeme at h
  split at h
  · split at h
    · cases h
    · cases h
      exact marked_zero unblank
  split at h
  · dsimp only at h
    split at h
    · next d next_eq =>
      split at h
      · next touches =>
        cases h
        rw [List.head?_drop] at next_eq
        exact ⟨d, next_eq, unblank_of_touches touches⟩
      · cases h
    · cases h
  split at h
  · cases h
  · cases read : sign c rest.head? with
    | ok found =>
      rw [read] at h
      cases h
    | error cause =>
      rw [read] at h
      cases h
      exact marked_zero unblank

/-- The reader fails at a character that is not white space. -/
theorem marked_of_scanFrom {fault : SyntaxError} (h : scanFrom offset text = .error fault) :
    ∃ place, fault.offset = offset + place ∧ Marked text place := by
  induction offset, text using scanFrom.induct with
  | case1 =>
    rw [scanFrom] at h
    cases h
  | case2 offset c rest blank ih =>
    rw [scanFrom, if_pos blank] at h
    obtain ⟨place, offset_eq, marked⟩ := ih h
    exact ⟨1 + place, by omega, marked.append_left [c]⟩
  | case3 offset c rest unblank fault' read =>
    rw [scanFrom, if_neg unblank, read] at h
    cases h
    exact ⟨fault'.ahead, rfl, marked_of_lexeme (Bool.eq_false_iff.mpr unblank) read⟩
  | case4 offset c rest unblank token width read ih =>
    rw [scanFrom, if_neg unblank, read] at h
    dsimp only at h
    obtain ⟨tail, after, rfl, rfl, -⟩ := lexeme_sound read
    rw [List.drop_left] at h ih
    cases further : scanFrom (offset + 1 + tail.length) after with
    | ok more =>
      rw [further] at h
      cases h
    | error fault' =>
      rw [further] at h
      cases h
      obtain ⟨place, offset_eq, marked⟩ := ih further
      exact ⟨(c :: tail).length + place, by rw [List.length_cons]; omega,
        marked.append_left (c :: tail)⟩

theorem marked_of_scan {fault : SyntaxError} (h : scan text = .error fault) :
    Marked text fault.offset := by
  rw [scan] at h
  cases read : scanFrom 0 text with
  | ok tokens =>
    rw [read] at h
    cases h
  | error fault' =>
    rw [read] at h
    cases h
    obtain ⟨place, offset_eq, marked⟩ := marked_of_scanFrom read
    rw [offset_eq, Nat.zero_add]
    exact marked

/-- A token stands at a character that is not white space. -/
theorem marked_of_mem_placed {pieces : List Piece} (divided : Divided pieces last)
    {t : PlacedToken} (member : t ∈ placed 0 pieces) : Marked (spread pieces last) t.offset := by
  obtain ⟨before, lexeme, after, split, offset_eq, spells, -⟩ :=
    exists_lexeme_of_mem_placed 0 divided member
  obtain ⟨c, tail, rfl, unblank⟩ := spells.exists_cons
  rw [split, offset_eq, Nat.zero_add]
  exact (marked_zero unblank).append_left before

end FormRules.Token
