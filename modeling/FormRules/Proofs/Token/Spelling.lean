import FormRules.Token.Lexeme

/-!
# How tokens are spelt

A word and a number are spelt as they stand, a text stands between quotes with some characters
escaped, and a sign has one or more spellings. A spelling may go on into what follows it, as a word
into more letters, so it is a lexeme only if nothing that follows could belong to it.
-/

namespace FormRules.Token

open FormRules.Text

/-- A character that begins a word, and characters that continue it. -/
def IsWord : List Char → Prop
  | [] => False
  | c :: more => beginsWord c = true ∧ ∀ d ∈ more, continuesWord d = true

def IsDigits (digits : List Char) : Prop := digits ≠ [] ∧ ∀ c ∈ digits, c.isDigit = true

/-- White space, or nothing at all. -/
def IsGap (gap : List Char) : Prop := ∀ c ∈ gap, isBlank c = true

instance : DecidablePred IsWord
  | [] => isFalse id
  | c :: more => decidable_of_iff (beginsWord c = true ∧ more.all continuesWord = true)
      (by simp [IsWord])

instance : DecidablePred IsDigits := fun digits ↦
  decidable_of_iff (digits ≠ [] ∧ digits.all Char.isDigit = true) (by simp [IsDigits])

instance : DecidablePred IsGap := fun gap ↦
  decidable_of_iff (gap.all isBlank = true) (by simp [IsGap])

/-- Digits, and a point with digits after it if there is a fraction. -/
inductive IsNumber : List Char → Prop
  | whole {digits : List Char} : IsDigits digits → IsNumber digits
  | decimal {digits fraction : List Char} :
    IsDigits digits → IsDigits fraction → IsNumber (digits ++ '.' :: fraction)

/-- What a backslash and the character after it stand for. -/
inductive Escapes : Char → List Char → Prop
  | itself {c : Char} : c = '"' ∨ c = '\'' ∨ c = '\\' → Escapes c [c]
  | newline : Escapes 'n' ['\n']
  | tab : Escapes 't' ['\t']
  | neither {c : Char} : c ∉ ['"', '\'', '\\', 'n', 't'] → Escapes c ['\\', c]

/-- What stands between two quotes, and the content that it decodes to. -/
inductive Decodes (quote : Char) : List Char → List Char → Prop
  | done : Decodes quote [] []
  | plain {c : Char} {body content : List Char} :
    c ≠ quote → c ≠ '\\' → Decodes quote body content → Decodes quote (c :: body) (c :: content)
  | escape {c : Char} {meaning body content : List Char} :
    Escapes c meaning → Decodes quote body content →
      Decodes quote ('\\' :: c :: body) (meaning ++ content)

/-- The spellings of a sign. -/
def signs : Token → List (List Char)
  | .leftParen => [['(']]
  | .rightParen => [[')']]
  | .comma => [[',']]
  | .dot => [['.']]
  | .equal => [['=', '=']]
  | .notEqual => [['!', '='], ['≠']]
  | .less => [['<']]
  | .lessEqual => [['<', '='], ['≤']]
  | .greater => [['>']]
  | .greaterEqual => [['>', '='], ['≥']]
  | .plus => [['+']]
  | .minus => [['-']]
  | .star => [['*']]
  | .slash => [['/']]
  | .and => [['&', '&'], ['∧']]
  | .or => [['|', '|'], ['∨']]
  | .not => [['!'], ['¬']]
  | .word _ | .text _ | .number _ => []

/-- A list of characters spells a token, where `between` tells what may stand between quotes for a
content. -/
def Spells (between : Char → List Char → List Char → Prop) : Token → List Char → Prop
  | .word w, cs => cs = w.toList ∧ IsWord cs
  | .number digits, cs => cs = digits.toList ∧ IsNumber cs
  | .text content, cs => ∃ quote body, (quote = '"' ∨ quote = '\'') ∧
      between quote body content.toList ∧ cs = quote :: (body ++ [quote])
  | token, cs => cs ∈ signs token

/-- The spelling of a token could not have been longer, given what follows it. -/
def Longest : Token → List Char → List Char → Prop
  | .word _, _, after => ∀ c ∈ after.head?, continuesWord c = false
  | .number _, cs, after =>
    (∀ c ∈ after.head?, c.isDigit = false ∧ isLetter c = false ∧ c ≠ '_') ∧
      ('.' ∉ cs → ∀ d rest, after = '.' :: d :: rest → d.isDigit = false)
  | .text _, _, _ => True
  | _, cs, after => cs = ['<'] ∨ cs = ['>'] ∨ cs = ['!'] → after.head? ≠ some '='

theorem IsNumber.ne_nil {cs : List Char} (h : IsNumber cs) : cs ≠ [] := by
  cases h with
  | whole digits => exact digits.1
  | decimal whole some => simp

theorem IsNumber.head {c : Char} {cs : List Char} (h : IsNumber (c :: cs)) : c.isDigit = true := by
  generalize spelling : c :: cs = number at h
  cases h with
  | whole digits =>
    subst spelling
    exact digits.2 c List.mem_cons_self
  | @decimal digits fraction whole some =>
    obtain ⟨first, digits, rfl⟩ := List.exists_cons_of_ne_nil whole.1
    rw [List.cons_append, List.cons.injEq] at spelling
    rw [spelling.1]
    exact whole.2 first List.mem_cons_self

theorem Spells.imp {between between' : Char → List Char → List Char → Prop} {token : Token}
    {cs : List Char} (h : Spells between token cs)
    (further : ∀ quote body content, quote = '"' ∨ quote = '\'' → between quote body content →
      between' quote body content) : Spells between' token cs := by
  cases token with
  | text content =>
    obtain ⟨quote, body, isQuote, stands, rfl⟩ := h
    exact ⟨quote, body, isQuote, further _ _ _ isQuote stands, rfl⟩
  | _ => exact h

/-! ## Classes of characters -/

variable {c : Char}

theorem inRanges_eq_false {ranges others : List (Nat × Nat)} {code : Nat}
    (apart : ∀ a ∈ ranges, ∀ b ∈ others, a.2 < b.1 ∨ b.2 < a.1)
    (h : inRanges ranges code = true) : inRanges others code = false := by
  obtain ⟨a, inside, first, last⟩ := inRanges_eq_true_iff.1 h
  rw [← Bool.not_eq_true, inRanges_eq_true_iff]
  rintro ⟨b, member, first', last'⟩
  have := apart a inside b member
  omega

theorem eq_of_isBlank_of_lt (blank : isBlank c = true) (ascii : c.toNat < 128) :
    c ∈ ['\t', '\n', '\x0b', '\x0c', '\r', ' '] := by
  obtain ⟨range, member, first, last⟩ := inRanges_eq_true_iff.1 blank
  have codes : c.toNat ∈ [9, 10, 11, 12, 13, 32] := by
    simp only [blankRanges, List.mem_cons, List.not_mem_nil, or_false] at member ⊢
    rcases member with rfl | rfl | rfl | rfl | rfl | rfl | rfl | rfl | rfl | rfl <;>
      dsimp only at first last <;> omega
  have chars := List.mem_map_of_mem (f := Char.ofNat) codes
  rw [Char.ofNat_toNat] at chars
  exact chars

theorem toNat_lt_of_isDigit (digit : c.isDigit = true) : c.toNat < 128 := by
  have nine : '9'.toNat = 57 := rfl
  have := (Char.isDigit_iff_toNat.1 digit).2
  omega

theorem beginsWord_of_isDigit (digit : c.isDigit = true) : beginsWord c = false := by
  have all : ∀ n < 128, (Char.ofNat n).isDigit = true → beginsWord (Char.ofNat n) = false := by
    decide +kernel
  have here := all c.toNat (toNat_lt_of_isDigit digit)
  rw [Char.ofNat_toNat] at here
  exact here digit

/-- White space belongs to no word and to no number. -/
theorem blank_apart (blank : isBlank c = true) :
    isLetter c = false ∧ isNumeral c = false ∧ c.isDigit = false := by
  by_cases ascii : c.toNat < 128
  · have listed := eq_of_isBlank_of_lt blank ascii
    simp only [List.mem_cons, List.not_mem_nil, or_false] at listed
    rcases listed with rfl | rfl | rfl | rfl | rfl | rfl <;> decide
  · have letter : isLetter c = false := by
      rw [isLetter, if_neg ascii]
      exact inRanges_eq_false (by decide +kernel) blank
    have numeral : isNumeral c = false := by
      rw [isNumeral, if_neg ascii]
      exact inRanges_eq_false (by decide +kernel) blank
    refine ⟨letter, numeral, ?_⟩
    rw [← Bool.not_eq_true]
    exact fun digit ↦ ascii (toNat_lt_of_isDigit digit)

theorem blank_ne (blank : isBlank c = true) :
    c ≠ '_' ∧ c ≠ '$' ∧ c ≠ '.' ∧ c ≠ '=' ∧ c ≠ '"' ∧ c ≠ '\'' := by
  refine ⟨?_, ?_, ?_, ?_, ?_, ?_⟩ <;> (rintro rfl; revert blank; decide)

theorem continuesWord_of_isBlank (blank : isBlank c = true) : continuesWord c = false := by
  obtain ⟨letter, numeral, -⟩ := blank_apart blank
  obtain ⟨underscore, dollar, -⟩ := blank_ne blank
  simp [continuesWord, letter, numeral, underscore, dollar]

theorem beginsWord_apart (begins : beginsWord c = true) :
    isBlank c = false ∧ c.isDigit = false ∧ c ≠ '"' ∧ c ≠ '\'' := by
  refine ⟨?_, ?_, ?_, ?_⟩
  · rw [← Bool.not_eq_true]
    intro blank
    obtain ⟨letter, -⟩ := blank_apart blank
    obtain ⟨underscore, dollar, -⟩ := blank_ne blank
    simp [beginsWord, letter, underscore, dollar] at begins
  · rw [← Bool.not_eq_true]
    intro digit
    rw [beginsWord_of_isDigit digit] at begins
    cases begins
  · rintro rfl
    revert begins
    decide
  · rintro rfl
    revert begins
    decide

theorem isDigit_apart (digit : c.isDigit = true) :
    isBlank c = false ∧ c ≠ '"' ∧ c ≠ '\'' := by
  refine ⟨?_, ?_, ?_⟩
  · rw [← Bool.not_eq_true]
    intro blank
    rw [(blank_apart blank).2.2] at digit
    cases digit
  · rintro rfl
    revert digit
    decide
  · rintro rfl
    revert digit
    decide

/-- Every sign begins with a character that begins nothing else. -/
theorem signs_apart {token : Token} {cs : List Char} (h : cs ∈ signs token) : ∃ c more,
    cs = c :: more ∧ isBlank c = false ∧ c.isDigit = false ∧ beginsWord c = false ∧
      c ≠ '"' ∧ c ≠ '\'' := by
  cases token <;> simp only [signs, List.mem_cons, List.not_mem_nil, or_false] at h
  all_goals
    rcases h with rfl | rfl
    all_goals exact ⟨_, _, rfl, by decide +kernel⟩

end FormRules.Token
