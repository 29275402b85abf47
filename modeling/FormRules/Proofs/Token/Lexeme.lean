import FormRules.Proofs.Token.Spelling
import Mathlib.Data.List.TakeWhile

/-!
# Lexemes are the longest spellings

What is read off the front of a text spells the token that it is read as, and nothing that follows
could belong to it. Conversely such a spelling at the front of a text is read off it.
-/

namespace FormRules.Token

open FormRules.Text

variable {c quote : Char} {rest tail after body content : List Char} {token : Token} {width : Nat}

/-! ## Texts in quotes -/

theorem escapes_iff : Escapes c content ↔ content = unescape c := by
  constructor
  · intro h
    cases h with
    | itself listed => exact (if_pos (by simpa [or_assoc] using listed)).symm
    | newline => rfl
    | tab => rfl
    | neither absent =>
      simp only [List.mem_cons, List.not_mem_nil, or_false, not_or] at absent
      simp [unescape, absent]
  · rintro rfl
    unfold unescape
    split
    · next listed => exact .itself (by simpa [or_assoc] using listed)
    · next unlisted =>
      split
      · next same => exact same ▸ .newline
      · split
        · next same => exact same ▸ .tab
        · next newline tab => exact .neither (by simpa [newline, tab, and_assoc] using unlisted)

theorem quotedContent_sound (h : quotedContent quote rest = .ok (content, width)) :
    ∃ body after, rest = body ++ quote :: after ∧ width = body.length + 1 ∧
      Decodes quote body content := by
  induction rest using quotedContent.induct quote generalizing content width with
  | case1 => cases h
  | case2 rest =>
    rw [quotedContent.eq_def] at h
    dsimp only at h
    rw [if_pos rfl] at h
    cases h
    exact ⟨[], rest, rfl, rfl, .done⟩
  | case3 unquoted =>
    rw [quotedContent, if_neg unquoted, if_pos rfl] at h
    cases h
  | case4 e rest unquoted ih =>
    rw [quotedContent, if_neg unquoted, if_pos rfl] at h
    cases read : quotedContent quote rest with
    | error cause =>
      rw [read] at h
      cases h
    | ok inner =>
      rw [read] at h
      cases h
      obtain ⟨body, after, rfl, width_eq, decodes⟩ := ih read
      refine ⟨'\\' :: e :: body, after, rfl, ?_, .escape (escapes_iff.2 rfl) decodes⟩
      rw [width_eq]
      rfl
  | case5 c rest unquoted plain ih =>
    rw [quotedContent.eq_def] at h
    dsimp only at h
    rw [if_neg unquoted, if_neg plain] at h
    cases read : quotedContent quote rest with
    | error cause =>
      rw [read] at h
      cases h
    | ok inner =>
      rw [read] at h
      cases h
      obtain ⟨body, after, rfl, width_eq, decodes⟩ := ih read
      refine ⟨c :: body, after, rfl, ?_, .plain unquoted plain decodes⟩
      rw [width_eq]
      rfl

theorem quotedContent_complete (isQuote : quote ≠ '\\') (h : Decodes quote body content) :
    quotedContent quote (body ++ quote :: after) = .ok (content, body.length + 1) := by
  induction h with
  | done =>
    rw [List.nil_append, quotedContent.eq_def]
    exact if_pos rfl
  | plain unquoted unescaped _ ih =>
    rw [List.cons_append, quotedContent.eq_def]
    dsimp only
    rw [if_neg unquoted, if_neg unescaped, ih]
    rfl
  | escape meaning _ ih =>
    rw [List.cons_append, List.cons_append, quotedContent, if_neg isQuote.symm, if_pos rfl, ih,
      escapes_iff.1 meaning]
    rfl

/-! ## Numbers -/

/-- A run of characters stops before a text, said of its first character in two ways. -/
theorem stops_iff {p : Char → Bool} {cs : List Char} :
    (∀ c ∈ cs.head?, p c = false) ↔
      ∀ filled : 0 < cs.length, ¬p (cs.get ⟨0, filled⟩) = true := by
  cases cs <;> simp

theorem isDigits_takeWhile {cs : List Char} (h : cs.takeWhile Char.isDigit ≠ []) :
    IsDigits (cs.takeWhile Char.isDigit) :=
  ⟨h, fun _ ↦ List.mem_takeWhile_imp⟩

/-- Either there is no fraction, or it is a point and all digits that follow it. -/
theorem fraction_cases (rest : List Char) :
    fraction rest = [] ∧ (∀ d more, rest = '.' :: d :: more → d.isDigit = false) ∨
      ∃ digits after, IsDigits digits ∧ rest = '.' :: (digits ++ after) ∧
        fraction rest = '.' :: digits ∧ ∀ c ∈ after.head?, c.isDigit = false := by
  unfold fraction
  split
  · rename_i rest
    split
    · next none =>
      refine .inl ⟨rfl, ?_⟩
      rintro d more ⟨⟩
      rw [← Bool.not_eq_true]
      intro digit
      rw [List.takeWhile_cons_of_pos digit] at none
      cases none
    · next some =>
      refine .inr ⟨rest.takeWhile Char.isDigit, rest.dropWhile Char.isDigit,
        isDigits_takeWhile some, ?_, rfl,
        stops_iff.2 (List.dropWhile_get_zero_not Char.isDigit rest)⟩
      rw [List.takeWhile_append_dropWhile]
  · next other =>
    refine .inl ⟨rfl, ?_⟩
    rintro d more rfl
    exact absurd rfl (other (d :: more))

theorem fraction_eq_nil (h : ∀ d more, rest = '.' :: d :: more → d.isDigit = false) :
    fraction rest = [] := by
  rcases fraction_cases rest with ⟨none, -⟩ | ⟨digits, after, ⟨some, digit⟩, rfl, -, -⟩
  · exact none
  · cases digits with
    | nil => exact absurd rfl some
    | cons d digits =>
      have := h d (digits ++ after) rfl
      rw [digit d List.mem_cons_self] at this
      cases this

theorem fraction_eq {digits : List Char} (h : IsDigits digits)
    (ends : ∀ c ∈ after.head?, c.isDigit = false) :
    fraction ('.' :: (digits ++ after)) = '.' :: digits := by
  have taken : (digits ++ after).takeWhile Char.isDigit = digits := by
    rw [List.takeWhile_append_of_pos h.2, List.takeWhile_eq_nil_iff.2 (stops_iff.1 ends),
      List.append_nil]
  rw [fraction, taken]
  split
  · exact absurd rfl h.1
  · rfl

/-- What is taken for the rest of a number makes a number with the digit before it, and no more
digits could belong to it. -/
theorem numberTail_sound (digit : c.isDigit = true) (rest : List Char) :
    ∃ after, rest = numberTail rest ++ after ∧ IsNumber (c :: numberTail rest) ∧
      (∀ d ∈ after.head?, d.isDigit = false) ∧
      ('.' ∉ c :: numberTail rest → ∀ d more, after = '.' :: d :: more → d.isDigit = false) := by
  have whole : IsDigits (c :: rest.takeWhile Char.isDigit) := by
    refine ⟨List.cons_ne_nil _ _, ?_⟩
    intro d member
    rcases List.mem_cons.1 member with rfl | member
    · exact digit
    · exact List.mem_takeWhile_imp member
  have split : rest = rest.takeWhile Char.isDigit ++ rest.dropWhile Char.isDigit :=
    List.takeWhile_append_dropWhile.symm
  rcases fraction_cases (rest.dropWhile Char.isDigit) with
    ⟨none, unpointed⟩ | ⟨digits, after, some, follows, found, ends⟩
  · have tail : numberTail rest = rest.takeWhile Char.isDigit := by
      rw [numberTail, none, List.append_nil]
    rw [tail]
    have ends := stops_iff.2 (List.dropWhile_get_zero_not Char.isDigit rest)
    exact ⟨_, split, .whole whole, ends, fun _ ↦ unpointed⟩
  · have tail : numberTail rest = rest.takeWhile Char.isDigit ++ '.' :: digits := by
      rw [numberTail, found]
    rw [tail]
    refine ⟨after, ?_, .decimal whole some, ends, ?_⟩
    · rw [List.append_assoc, List.cons_append, ← follows]
      exact split
    · intro unpointed
      simp at unpointed

theorem numberTail_complete (number : IsNumber (c :: tail))
    (ends : ∀ d ∈ after.head?, d.isDigit = false)
    (unpointed : '.' ∉ c :: tail → ∀ d more, after = '.' :: d :: more → d.isDigit = false) :
    numberTail (tail ++ after) = tail := by
  generalize spelling : c :: tail = cs at number unpointed
  cases number with
  | whole digits =>
    subst spelling
    have all : ∀ d ∈ tail, d.isDigit = true := fun d member ↦
      digits.2 d (List.mem_cons_of_mem c member)
    have point : '.' ∉ c :: tail := fun member ↦ absurd (digits.2 _ member) (by decide)
    rw [numberTail, List.takeWhile_append_of_pos all, List.dropWhile_append_of_pos all,
      List.takeWhile_eq_nil_iff.2 (stops_iff.1 ends),
      List.dropWhile_eq_self_iff.2 (stops_iff.1 ends), fraction_eq_nil (unpointed point),
      List.append_nil, List.append_nil]
  | @decimal digits fraction whole some =>
    obtain ⟨first, digits, rfl⟩ := List.exists_cons_of_ne_nil whole.1
    rw [List.cons_append, List.cons.injEq] at spelling
    obtain ⟨rfl, rfl⟩ := spelling
    have all : ∀ d ∈ digits, d.isDigit = true := fun d member ↦
      whole.2 d (List.mem_cons_of_mem c member)
    have point : ∀ d ∈ ('.' :: (fraction ++ after)).head?, d.isDigit = false := by
      rintro _ ⟨⟩
      decide
    have tail_eq : digits ++ '.' :: fraction ++ after = digits ++ '.' :: (fraction ++ after) := by
      rw [List.append_assoc, List.cons_append]
    rw [tail_eq, numberTail, List.takeWhile_append_of_pos all, List.dropWhile_append_of_pos all,
      List.takeWhile_eq_nil_iff.2 (stops_iff.1 point),
      List.dropWhile_eq_self_iff.2 (stops_iff.1 point), fraction_eq some ends, List.append_nil]

/-! ## Signs -/

theorem spells_sign {cs : List Char} (between : Char → List Char → List Char → Prop)
    (h : cs ∈ signs token) : Spells between token cs := by
  cases token <;> first | exact h | cases h

theorem longest_sign_iff {cs : List Char} (h : cs ∈ signs token) : Longest token cs after ↔
    (cs = ['<'] ∨ cs = ['>'] ∨ cs = ['!'] → after.head? ≠ some '=') := by
  cases token <;> first | exact Iff.rfl | cases h

theorem sign_eq_ok_iff {next : Option Char} : sign c next = .ok (token, width) ↔
    width = 0 ∧ [c] ∈ signs token ∧ (c = '<' ∨ c = '>' ∨ c = '!' → next ≠ some '=') ∨
      width = 1 ∧ ∃ d, next = some d ∧ [c, d] ∈ signs token := by
  constructor
  · intro h
    unfold sign at h
    split at h <;> cases h <;> simp_all [signs]
  · rintro (⟨rfl, listed, single⟩ | ⟨rfl, d, rfl, listed⟩)
    · cases token <;> simp [signs] at listed
      all_goals
        first
        | subst listed
          unfold sign
          split <;> simp_all
        | rcases listed with rfl | rfl
          all_goals
            unfold sign
            split <;> simp_all
    · cases token <;> simp [signs] at listed
      all_goals
        obtain ⟨rfl, rfl⟩ := listed
        rfl

theorem sign_sound (h : sign c rest.head? = .ok (token, width)) : ∃ tail after,
    rest = tail ++ after ∧ width = tail.length ∧ c :: tail ∈ signs token ∧
      Longest token (c :: tail) after := by
  rcases sign_eq_ok_iff.1 h with ⟨rfl, listed, single⟩ | ⟨rfl, d, second, listed⟩
  · refine ⟨[], rest, rfl, rfl, listed, (longest_sign_iff listed).2 ?_⟩
    simpa using single
  · obtain ⟨after, rfl⟩ := List.head?_eq_some_iff.1 second
    refine ⟨[d], after, rfl, rfl, listed, (longest_sign_iff listed).2 ?_⟩
    simp

theorem sign_complete (listed : c :: tail ∈ signs token)
    (longest : Longest token (c :: tail) after) :
    sign c (tail ++ after).head? = .ok (token, tail.length) := by
  rw [longest_sign_iff listed] at longest
  match tail with
  | [] => exact sign_eq_ok_iff.2 (.inl ⟨rfl, listed, by simpa using longest⟩)
  | [d] => exact sign_eq_ok_iff.2 (.inr ⟨rfl, d, rfl, listed⟩)
  | _ :: _ :: _ => cases token <;> simp [signs] at listed

/-! ## Lexemes, by what they begin with -/

theorem lexeme_of_isQuote (isQuote : c = '"' ∨ c = '\'') : lexeme c rest =
    match quotedContent c rest with
    | .ok (content, width) => .ok (.text (String.ofList content), width)
    | .error cause => .error ⟨cause, 0⟩ :=
  if_pos (by simpa using isQuote)

theorem lexeme_of_isDigit (digit : c.isDigit = true) (split : rest = numberTail rest ++ after) :
    lexeme c rest =
      match after.head? with
      | some d =>
        if isLetter d || d = '_' then .error ⟨.afterNumber d, (numberTail rest).length + 1⟩
        else .ok (.number (String.ofList (c :: numberTail rest)), (numberTail rest).length)
      | none => .ok (.number (String.ofList (c :: numberTail rest)), (numberTail rest).length) := by
  have follows : rest.drop (numberTail rest).length = after := by
    have dropped := congrArg (List.drop (numberTail rest).length) split
    rwa [List.drop_left] at dropped
  obtain ⟨-, double, single⟩ := isDigit_apart digit
  subst follows
  exact (if_neg (by simp [double, single])).trans (if_pos digit)

theorem lexeme_of_beginsWord (begins : beginsWord c = true) : lexeme c rest =
    .ok (.word (String.ofList (c :: rest.takeWhile continuesWord)),
      (rest.takeWhile continuesWord).length) := by
  obtain ⟨-, digit, double, single⟩ := beginsWord_apart begins
  rw [lexeme, if_neg (by simp [double, single]), if_neg (by simp [digit]), if_pos begins]

theorem lexeme_of_sign (double : c ≠ '"') (single : c ≠ '\'') (digit : c.isDigit = false)
    (begins : beginsWord c = false) :
    lexeme c rest = (sign c rest.head?).mapError (⟨·, 0⟩) := by
  rw [lexeme, if_neg (by simp [double, single]), if_neg (by simp [digit]),
    if_neg (by simp [begins])]

/-! ## Lexemes -/

/-- A lexeme spells its token and is the longest text that does. -/
structure Lexed (c : Char) (rest : List Char) (token : Token) (tail after : List Char) : Prop where
  split : rest = tail ++ after
  spells : Spells Decodes token (c :: tail)
  longest : Longest token (c :: tail) after

theorem lexed_text (isQuote : c = '"' ∨ c = '\'') (h : lexeme c rest = .ok (token, width)) :
    ∃ tail after, width = tail.length ∧ Lexed c rest token tail after := by
  rw [lexeme_of_isQuote isQuote] at h
  split at h
  · next content width' read =>
    cases h
    obtain ⟨body, after, rfl, width_eq, decodes⟩ := quotedContent_sound read
    refine ⟨body ++ [c], after, by simp [width_eq], by simp, ⟨c, body, isQuote, ?_, rfl⟩, trivial⟩
    rwa [String.toList_ofList]
  · cases h

theorem lexed_number (digit : c.isDigit = true) (h : lexeme c rest = .ok (token, width)) :
    ∃ tail after, width = tail.length ∧ Lexed c rest token tail after := by
  obtain ⟨after, split, number, ends, unpointed⟩ := numberTail_sound digit rest
  have spells : Spells Decodes (.number (String.ofList (c :: numberTail rest)))
      (c :: numberTail rest) := ⟨String.toList_ofList.symm, number⟩
  rw [lexeme_of_isDigit digit split] at h
  split at h
  · next d next =>
    split at h
    · cases h
    · next apart =>
      cases h
      refine ⟨_, after, rfl, split, spells, ?_, unpointed⟩
      rw [next]
      rintro _ ⟨⟩
      exact ⟨ends d next, by simpa using apart⟩
  · next next =>
    cases h
    refine ⟨_, after, rfl, split, spells, ?_, unpointed⟩
    rw [next]
    rintro _ ⟨⟩

theorem lexed_word (begins : beginsWord c = true) (h : lexeme c rest = .ok (token, width)) :
    ∃ tail after, width = tail.length ∧ Lexed c rest token tail after := by
  rw [lexeme_of_beginsWord begins] at h
  cases h
  refine ⟨rest.takeWhile continuesWord, rest.dropWhile continuesWord, rfl,
    List.takeWhile_append_dropWhile.symm, ⟨String.toList_ofList.symm, begins, ?_⟩,
    stops_iff.2 (List.dropWhile_get_zero_not continuesWord rest)⟩
  exact fun d ↦ List.mem_takeWhile_imp

theorem lexed_sign (double : c ≠ '"') (single : c ≠ '\'') (digit : c.isDigit = false)
    (begins : beginsWord c = false) (h : lexeme c rest = .ok (token, width)) :
    ∃ tail after, width = tail.length ∧ Lexed c rest token tail after := by
  rw [lexeme_of_sign double single digit begins] at h
  cases read : sign c rest.head? with
  | error cause =>
    rw [read] at h
    cases h
  | ok found =>
    rw [read] at h
    cases h
    obtain ⟨tail, after, split, width_eq, listed, longest⟩ := sign_sound read
    exact ⟨tail, after, width_eq, split, spells_sign Decodes listed, longest⟩

theorem lexeme_sound (h : lexeme c rest = .ok (token, width)) :
    ∃ tail after, width = tail.length ∧ Lexed c rest token tail after := by
  by_cases isQuote : c = '"' ∨ c = '\''
  · exact lexed_text isQuote h
  · rw [not_or] at isQuote
    cases digit : c.isDigit with
    | true => exact lexed_number digit h
    | false =>
      cases begins : beginsWord c with
      | true => exact lexed_word begins h
      | false => exact lexed_sign isQuote.1 isQuote.2 digit begins h

theorem lexeme_complete (lexed : Lexed c rest token tail after) :
    lexeme c rest = .ok (token, tail.length) := by
  obtain ⟨rfl, spells, longest⟩ := lexed
  cases token with
  | word w =>
    obtain ⟨spelling, begins, more⟩ := spells
    have taken : (tail ++ after).takeWhile continuesWord = tail := by
      rw [List.takeWhile_append_of_pos more, List.takeWhile_eq_nil_iff.2 (stops_iff.1 longest),
        List.append_nil]
    rw [lexeme_of_beginsWord begins, taken, spelling, String.ofList_toList]
  | text content =>
    obtain ⟨quote, body, isQuote, decodes, spelling⟩ := spells
    cases spelling
    have unescaped : c ≠ '\\' := by
      rintro rfl
      revert isQuote
      decide
    rw [lexeme_of_isQuote isQuote, List.append_assoc]
    rw [List.singleton_append, quotedContent_complete unescaped decodes]
    simp
  | number digits =>
    obtain ⟨spelling, number⟩ := spells
    have digit : c.isDigit = true := number.head
    have taken := numberTail_complete number (fun d next ↦ (longest.1 d next).1) longest.2
    rw [lexeme_of_isDigit digit (by rw [taken]), taken, spelling, String.ofList_toList]
    split
    · next d next =>
      obtain ⟨-, letter, underscore⟩ := longest.1 d next
      rw [if_neg (by simp [letter, underscore])]
    · rfl
  | _ =>
    obtain ⟨_, _, ⟨rfl, rfl⟩, -, digit, begins, double, single⟩ := signs_apart spells
    rw [lexeme_of_sign double single digit begins, sign_complete spells longest]
    rfl

end FormRules.Token
