import FormRules.Text.Hex
import FormRules.Text.Quoted
import Mathlib.Data.List.Induction
import Mathlib.Tactic.Common

/-!
# Telling quoted texts apart

No two characters are quoted alike, and where one that has been quoted ends can be seen from how it
begins: at the letter of its escape, at the closing brace of its number, or at once. A quoted text
can therefore be taken apart in one way only, whatever follows it.
-/

namespace FormRules.Text

variable {c c' : Char} {cs cs' rest rest' : List Char}

/-- Two runs of characters of one kind are the same if each ends where that kind does. -/
theorem append_inj_of_kind {kind : Char → Prop} (all : ∀ c ∈ cs, kind c)
    (all' : ∀ c ∈ cs', kind c) (ends : ∀ c ∈ rest.head?, ¬kind c)
    (ends' : ∀ c ∈ rest'.head?, ¬kind c) (h : cs ++ rest = cs' ++ rest') :
    cs = cs' ∧ rest = rest' := by
  induction cs generalizing cs' with
  | nil =>
    cases cs' with
    | nil => exact ⟨rfl, h⟩
    | cons c' cs' =>
      subst h
      exact absurd (all' c' List.mem_cons_self) (ends c' rfl)
  | cons c cs ih =>
    cases cs' with
    | nil =>
      subst h
      exact absurd (all c List.mem_cons_self) (ends' c rfl)
    | cons c' cs' =>
      obtain ⟨rfl, further⟩ := List.cons.inj h
      obtain ⟨rfl, same⟩ := ih (List.forall_mem_cons.mp all).2 (List.forall_mem_cons.mp all').2
        further
      exact ⟨rfl, same⟩

/-! ## Numbers of characters -/

theorem hexValue_digitChar : ∀ digit < 16, hexValue (Nat.digitChar digit) = some digit := by
  decide

theorem hexNumber_concat (digits : List Char) (c : Char) : hexNumber (digits ++ [c]) =
    (hexNumber digits).bind fun value ↦ (hexValue c).map (16 * value + ·) := by
  simp [hexNumber, List.foldlM_append]

/-- The digits of a number are read as that number. -/
theorem hexNumber_hexDigits (code : Nat) : hexNumber (hexDigits code) = some code := by
  induction code using Nat.strongRecOn with
  | ind code ih =>
    by_cases small : code < 16
    · rw [hexDigits, Nat.toDigits_of_lt_base small]
      simp [hexNumber, hexValue_digitChar code small]
    · have quotient := ih (code / 16) (by omega)
      rw [hexDigits] at quotient
      rw [hexDigits, Nat.toDigits_of_base_le (by decide) (by omega), hexNumber_concat, quotient]
      simp [hexValue_digitChar (code % 16) (by omega), Nat.div_add_mod]

theorem exists_hexValue {code : Nat} (read : hexNumber cs = some code) (member : c ∈ cs) :
    ∃ digit, hexValue c = some digit := by
  induction cs using List.reverseRecOn generalizing code with
  | nil => cases member
  | append_singleton digits last ih =>
    rw [hexNumber_concat, Option.bind_eq_some_iff] at read
    obtain ⟨value, read_digits, read_last⟩ := read
    obtain ⟨digit, last_eq, -⟩ := Option.map_eq_some_iff.mp read_last
    rcases List.mem_append.mp member with earlier | at_end
    · exact ih read_digits earlier
    · exact ⟨digit, List.mem_singleton.mp at_end ▸ last_eq⟩

/-- The digits of a number end where the brace after them stands. -/
theorem hexDigits_append_inj {code code' : Nat}
    (h : hexDigits code ++ '\x7d' :: rest = hexDigits code' ++ '\x7d' :: rest') :
    code = code' ∧ rest = rest' := by
  have unclosed : ∀ code, ∀ c ∈ hexDigits code, c ≠ '\x7d' := by
    rintro code _ member rfl
    obtain ⟨digit, value⟩ := exists_hexValue (hexNumber_hexDigits code) member
    cases value
  have closed : ∀ rest : List Char, ∀ c ∈ ('\x7d' :: rest).head?, ¬c ≠ '\x7d' := by
    rintro rest _ ⟨⟩
    simp
  obtain ⟨digits_eq, rest_eq⟩ :=
    append_inj_of_kind (unclosed code) (unclosed code') (closed rest) (closed rest') h
  have read := congrArg hexNumber digits_eq
  rw [hexNumber_hexDigits, hexNumber_hexDigits] at read
  exact ⟨Option.some.inj read, (List.cons.inj rest_eq).2⟩

/-! ## Characters as they are quoted -/

/-- The escapes of one letter and the characters that they stand for. -/
def shortEscapes : List (Char × Char) :=
  [('"', '"'), ('\\', '\\'), ('n', '\n'), ('r', '\r'), ('t', '\t'), ('0', '\x00')]

/-- The ways in which a character can be quoted. -/
inductive Quoted (c : Char) : List Char → Prop
  | short {letter : Char} : (letter, c) ∈ shortEscapes → Quoted c ['\\', letter]
  | numbered : Quoted c ('\\' :: 'u' :: '\x7b' :: (hexDigits c.toNat ++ ['\x7d']))
  | plain : c ≠ '"' → c ≠ '\\' → Quoted c [c]

theorem quoted_quoteChar (c : Char) : Quoted c (quoteChar c) := by
  unfold quoteChar
  split_ifs with quote backslash newline carriage tab zero numbered
  · exact .short (by rw [quote]; decide)
  · exact .short (by rw [backslash]; decide)
  · exact .short (by rw [newline]; decide)
  · exact .short (by rw [carriage]; decide)
  · exact .short (by rw [tab]; decide)
  · exact .short (by rw [zero]; decide)
  · exact .numbered
  · exact .plain quote backslash

theorem Quoted.head_ne (h : Quoted c cs) : (cs ++ rest).head? ≠ some '"' := by
  cases h with
  | short listed => simp
  | numbered => simp
  | plain quote backslash => simpa using quote

theorem shortEscapes_functional {letter : Char} (h : (letter, c) ∈ shortEscapes)
    (h' : (letter, c') ∈ shortEscapes) : c = c' := by
  have functional : ∀ a ∈ shortEscapes, ∀ b ∈ shortEscapes, a.1 = b.1 → a.2 = b.2 := by decide
  exact functional _ h _ h' rfl

theorem Quoted.append_inj (h : Quoted c cs) (h' : Quoted c' cs')
    (same : cs ++ rest = cs' ++ rest') : c = c' ∧ rest = rest' := by
  have unlisted : ∀ c, ('u', c) ∉ shortEscapes := by simp [shortEscapes]
  cases h with
  | short listed =>
    cases h' with
    | short listed' =>
      obtain ⟨-, further⟩ := List.cons.inj same
      obtain ⟨rfl, rest_eq⟩ := List.cons.inj further
      exact ⟨shortEscapes_functional listed listed', rest_eq⟩
    | numbered =>
      obtain ⟨-, further⟩ := List.cons.inj same
      obtain ⟨rfl, -⟩ := List.cons.inj further
      exact absurd listed (unlisted c)
    | plain _ backslash => exact absurd (List.cons.inj same).1.symm backslash
  | numbered =>
    cases h' with
    | short listed =>
      obtain ⟨-, further⟩ := List.cons.inj same
      obtain ⟨rfl, -⟩ := List.cons.inj further
      exact absurd listed (unlisted c')
    | numbered =>
      simp only [List.cons_append, List.append_assoc, List.nil_append, List.cons.injEq,
        true_and] at same
      obtain ⟨code_eq, rest_eq⟩ := hexDigits_append_inj same
      exact ⟨Char.toNat_inj.mp code_eq, rest_eq⟩
    | plain _ backslash => exact absurd (List.cons.inj same).1.symm backslash
  | plain _ backslash =>
    cases h' with
    | short listed => exact absurd (List.cons.inj same).1 backslash
    | numbered => exact absurd (List.cons.inj same).1 backslash
    | plain => exact List.cons.inj same

/-! ## Texts as they are quoted -/

theorem quoteChars_append (cs rest : List Char) :
    quoteChars cs ++ rest = '"' :: (cs.flatMap quoteChar ++ '"' :: rest) := by
  simp [quoteChars]

/-- A quoted text shows what it quotes and where it ends. -/
theorem quoteChars_append_inj (h : quoteChars cs ++ rest = quoteChars cs' ++ rest') :
    cs = cs' ∧ rest = rest' := by
  rw [quoteChars_append, quoteChars_append] at h
  have body := (List.cons.inj h).2
  clear h
  induction cs generalizing cs' with
  | nil =>
    cases cs' with
    | nil => exact ⟨rfl, (List.cons.inj body).2⟩
    | cons c' cs' =>
      rw [List.flatMap_nil, List.flatMap_cons, List.append_assoc] at body
      exact absurd (congrArg List.head? body).symm (quoted_quoteChar c').head_ne
  | cons c cs ih =>
    rw [List.flatMap_cons, List.append_assoc] at body
    cases cs' with
    | nil => exact absurd (congrArg List.head? body) (quoted_quoteChar c).head_ne
    | cons c' cs' =>
      rw [List.flatMap_cons, List.append_assoc] at body
      obtain ⟨rfl, further⟩ := (quoted_quoteChar c).append_inj (quoted_quoteChar c') body
      obtain ⟨rfl, rest_eq⟩ := ih further
      exact ⟨rfl, rest_eq⟩

end FormRules.Text
