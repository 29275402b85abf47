import FormRules.Proofs.Token.Lexeme
import FormRules.Token.Scan

/-!
# Texts as lexemes and white space

A text has tokens exactly if it can be divided into lexemes with white space before, between and
after them, where no lexeme could have been longer. There is only one such division, since what is
read off the front of a text is the longest lexeme there, and the tokens stand where their lexemes
begin.
-/

namespace FormRules.Token

open FormRules.Text

/-- A lexeme with the token that it spells and the white space before it. -/
structure Piece where
  gap : List Char
  lexeme : List Char
  token : Token

def Piece.text (piece : Piece) : List Char := piece.gap ++ piece.lexeme

/-- The text that pieces make up, with something after the last of them. -/
def spread (pieces : List Piece) (last : List Char) : List Char :=
  pieces.flatMap Piece.text ++ last

/-- The tokens of pieces of which the first begins at an offset, each where its lexeme begins. -/
def placed (offset : Nat) : List Piece → List PlacedToken
  | [] => []
  | piece :: more =>
    ⟨piece.token, offset + piece.gap.length⟩ :: placed (offset + piece.text.length) more

/-- All gaps are white space, and every lexeme spells its token and could not have been longer. -/
def Divided : List Piece → List Char → Prop
  | [], last => IsGap last
  | piece :: more, last =>
    IsGap piece.gap ∧ Spells Decodes piece.token piece.lexeme ∧
      Longest piece.token piece.lexeme (spread more last) ∧ Divided more last

variable {c : Char} {text rest last : List Char} {token : Token} {offset : Nat}
  {tokens : List PlacedToken} {pieces : List Piece}

@[simp] theorem spread_nil (last : List Char) : spread [] last = last := rfl

@[simp] theorem spread_cons (piece : Piece) (more : List Piece) (last : List Char) :
    spread (piece :: more) last = piece.gap ++ (piece.lexeme ++ spread more last) := by
  simp [spread, Piece.text]

/-! ## What spells a token -/

theorem Spells.exists_cons {between : Char → List Char → List Char → Prop} {cs : List Char}
    (h : Spells between token cs) : ∃ c tail, cs = c :: tail ∧ isBlank c = false := by
  cases token with
  | word w =>
    obtain ⟨-, word⟩ := h
    cases cs with
    | nil => cases word
    | cons c tail => exact ⟨c, tail, rfl, (beginsWord_apart word.1).1⟩
  | number digits =>
    obtain ⟨-, number⟩ := h
    cases cs with
    | nil => exact absurd rfl number.ne_nil
    | cons c tail => exact ⟨c, tail, rfl, (isDigit_apart number.head).1⟩
  | text content =>
    obtain ⟨quote, body, isQuote, -, rfl⟩ := h
    refine ⟨quote, body ++ [quote], rfl, ?_⟩
    rcases isQuote with rfl | rfl <;> decide
  | _ =>
    obtain ⟨c, tail, rfl, unblank, -⟩ := signs_apart h
    exact ⟨c, tail, rfl, unblank⟩

/-! ## Reading -/

theorem scanFrom_gap {gap : List Char} (blank : IsGap gap) :
    scanFrom offset (gap ++ rest) = scanFrom (offset + gap.length) rest := by
  induction gap generalizing offset with
  | nil => rfl
  | cons c gap ih =>
    obtain ⟨first, further⟩ := List.forall_mem_cons.1 blank
    rw [List.cons_append, scanFrom, if_pos first, ih further, List.length_cons]
    congr 1
    omega

theorem scanFrom_piece {lexeme : List Char} (spells : Spells Decodes token lexeme)
    (longest : Longest token lexeme rest) : scanFrom offset (lexeme ++ rest) =
      (scanFrom (offset + lexeme.length) rest).map (⟨token, offset⟩ :: ·) := by
  obtain ⟨c, tail, rfl, unblank⟩ := spells.exists_cons
  have read := lexeme_complete ⟨rfl, spells, longest⟩
  rw [List.cons_append, scanFrom, if_neg (by simp [unblank]), read]
  dsimp only
  rw [List.drop_left, List.length_cons, Nat.add_assoc, Nat.add_comm 1]

/-- The tokens of a divided text are those of its pieces. -/
theorem scanFrom_spread (h : Divided pieces last) :
    scanFrom offset (spread pieces last) = .ok (placed offset pieces) := by
  induction pieces generalizing offset with
  | nil =>
    have read : scanFrom offset (last ++ []) = scanFrom (offset + last.length) [] :=
      scanFrom_gap h
    rw [List.append_nil] at read
    rw [spread_nil, read, scanFrom]
    rfl
  | cons piece more ih =>
    obtain ⟨blank, spells, longest, divided⟩ := h
    rw [spread_cons, scanFrom_gap blank, scanFrom_piece spells longest, ih divided, placed,
      Piece.text, List.length_append, Nat.add_assoc]
    rfl

theorem exists_divided_of_blank (blank : isBlank c = true) (divided : Divided pieces last) :
    ∃ pieces' last', c :: spread pieces last = spread pieces' last' ∧ Divided pieces' last' ∧
      ∀ offset, placed (offset + 1) pieces = placed offset pieces' := by
  cases pieces with
  | nil => exact ⟨[], c :: last, rfl, List.forall_mem_cons.2 ⟨blank, divided⟩, fun _ ↦ rfl⟩
  | cons piece more =>
    obtain ⟨gap_blank, spells, longest, divided⟩ := divided
    refine ⟨⟨c :: piece.gap, piece.lexeme, piece.token⟩ :: more, last, by simp,
      ⟨List.forall_mem_cons.2 ⟨blank, gap_blank⟩, spells, longest, divided⟩, ?_⟩
    intro offset
    simp only [placed, Piece.text, List.length_cons, List.length_append]
    congr 2 <;> omega

/-- A text that has tokens is divided into their lexemes. -/
theorem exists_divided (h : scanFrom offset text = .ok tokens) : ∃ pieces last,
    text = spread pieces last ∧ Divided pieces last ∧ tokens = placed offset pieces := by
  induction offset, text using scanFrom.induct generalizing tokens with
  | case1 =>
    rw [scanFrom] at h
    cases h
    exact ⟨[], [], rfl, by simp [Divided, IsGap], rfl⟩
  | case2 offset c rest blank ih =>
    rw [scanFrom, if_pos blank] at h
    obtain ⟨pieces, last, rfl, divided, rfl⟩ := ih h
    obtain ⟨pieces', last', split, divided', same⟩ := exists_divided_of_blank blank divided
    exact ⟨pieces', last', split, divided', same offset⟩
  | case3 offset c rest unblank fault read =>
    rw [scanFrom, if_neg unblank, read] at h
    cases h
  | case4 offset c rest unblank token width read ih =>
    rw [scanFrom, if_neg unblank, read] at h
    dsimp only at h
    obtain ⟨tail, after, rfl, rfl, spells, longest⟩ := lexeme_sound read
    rw [List.drop_left] at h ih
    cases further : scanFrom (offset + 1 + tail.length) after with
    | error fault =>
      rw [further] at h
      cases h
    | ok more =>
      rw [further] at h
      cases h
      obtain ⟨pieces, last, rfl, divided, rfl⟩ := ih further
      refine ⟨⟨[], c :: tail, token⟩ :: pieces, last, by simp,
        ⟨by simp [IsGap], spells, longest, divided⟩, ?_⟩
      rw [placed, Piece.text, List.nil_append, List.length_cons, Nat.add_assoc, Nat.add_comm 1]
      rfl

theorem scan_spread (h : Divided pieces last) :
    scan (spread pieces last) = .ok ⟨placed 0 pieces, (spread pieces last).length⟩ := by
  rw [scan, scanFrom_spread h]
  rfl

theorem exists_divided_of_scan {list : TokenList} (h : scan text = .ok list) : ∃ pieces last,
    text = spread pieces last ∧ Divided pieces last ∧ list = ⟨placed 0 pieces, text.length⟩ := by
  rw [scan] at h
  cases read : scanFrom 0 text with
  | error fault =>
    rw [read] at h
    cases h
  | ok tokens =>
    rw [read] at h
    cases h
    obtain ⟨pieces, last, split, divided, rfl⟩ := exists_divided read
    exact ⟨pieces, last, split, divided, rfl⟩

/-! ## The tokens of a text without their places -/

/-- A token has a spelling. -/
def Spelled (token : Token) : Prop := ∃ lexeme, Spells Decodes token lexeme

theorem Spelled.isWord {w : String} (h : Spelled (.word w)) : IsWord w.toList := by
  obtain ⟨_, rfl, isWord⟩ := h
  exact isWord

theorem Spelled.isNumber {digits : String} (h : Spelled (.number digits)) :
    IsNumber digits.toList := by
  obtain ⟨_, rfl, isNumber⟩ := h
  exact isNumber

/-- A text is divided into lexemes that spell these tokens. -/
def Reads (text : List Char) (tokens : List Token) : Prop :=
  ∃ pieces last, text = spread pieces last ∧ Divided pieces last ∧ pieces.map Piece.token = tokens

theorem map_token_placed (offset : Nat) (pieces : List Piece) :
    (placed offset pieces).map PlacedToken.token = pieces.map Piece.token := by
  induction pieces generalizing offset with
  | nil => rfl
  | cons piece more ih => rw [placed, List.map_cons, List.map_cons, ih]

theorem reads_iff {tokens : List Token} : Reads text tokens ↔
    ∃ list, scan text = .ok list ∧ list.tokens.map PlacedToken.token = tokens := by
  constructor
  · rintro ⟨pieces, last, rfl, divided, rfl⟩
    exact ⟨_, scan_spread divided, map_token_placed 0 pieces⟩
  · rintro ⟨list, h, rfl⟩
    obtain ⟨pieces, last, rfl, divided, rfl⟩ := exists_divided_of_scan h
    exact ⟨pieces, last, rfl, divided, (map_token_placed 0 pieces).symm⟩

instance (text : List Char) (tokens : List Token) : Decidable (Reads text tokens) :=
  decidable_of_iff ((scan text).toOption.map (·.tokens.map PlacedToken.token) = some tokens) <| by
    rw [reads_iff]
    cases scan text <;> simp [Except.toOption]

theorem reads_nil : Reads [] [] := ⟨[], [], rfl, by simp [Divided, IsGap], rfl⟩

theorem Reads.blank {tokens : List Token} (h : Reads rest tokens) (blank : isBlank c = true) :
    Reads (c :: rest) tokens := by
  obtain ⟨pieces, last, rfl, divided, rfl⟩ := h
  obtain ⟨pieces', last', split, divided', same⟩ := exists_divided_of_blank blank divided
  refine ⟨pieces', last', split, divided', ?_⟩
  rw [← map_token_placed 0 pieces', ← same, map_token_placed]

theorem Reads.cons {lexeme : List Char} {tokens : List Token} (h : Reads rest tokens)
    (spells : Spells Decodes token lexeme) (longest : Longest token lexeme rest) :
    Reads (lexeme ++ rest) (token :: tokens) := by
  obtain ⟨pieces, last, rfl, divided, rfl⟩ := h
  exact ⟨⟨[], lexeme, token⟩ :: pieces, last, by simp, ⟨by simp [IsGap], spells, longest, divided⟩,
    rfl⟩

theorem Reads.spelled {tokens : List Token} (h : Reads text tokens) :
    ∀ token ∈ tokens, Spelled token := by
  obtain ⟨pieces, last, -, divided, rfl⟩ := h
  induction pieces with
  | nil => simp
  | cons piece more ih =>
    obtain ⟨-, spells, -, divided⟩ := divided
    rw [List.map_cons, List.forall_mem_cons]
    exact ⟨⟨piece.lexeme, spells⟩, ih divided⟩

/-! ## Where tokens stand -/

/-- The offsets of tokens and of the end of the text increase, since no lexeme is empty. -/
theorem increasing_placed (offset : Nat) (divided : Divided pieces last) :
    ((placed offset pieces).map PlacedToken.offset ++
      [offset + (spread pieces last).length]).Pairwise (· < ·) ∧
    ∀ place ∈ (placed offset pieces).map PlacedToken.offset ++
      [offset + (spread pieces last).length], offset ≤ place := by
  induction pieces generalizing offset with
  | nil => simp [placed]
  | cons piece more ih =>
    obtain ⟨-, spells, -, divided⟩ := divided
    obtain ⟨c, tail, lexeme_eq, -⟩ := spells.exists_cons
    have width : piece.text.length = piece.gap.length + (tail.length + 1) := by
      rw [Piece.text, List.length_append, lexeme_eq, List.length_cons]
    have stop : offset + (spread (piece :: more) last).length =
        offset + piece.text.length + (spread more last).length := by
      rw [spread_cons, ← List.append_assoc, ← Piece.text, List.length_append, Nat.add_assoc]
    obtain ⟨increasing, later⟩ := ih (offset + piece.text.length) divided
    rw [placed, List.map_cons, List.cons_append, stop, List.pairwise_cons, List.forall_mem_cons]
    refine ⟨⟨?_, increasing⟩, Nat.le_add_right _ _, ?_⟩
    · intro place member
      have := later place member
      dsimp only
      omega
    · intro place member
      have := later place member
      omega

/-- Each token stands before its lexeme. -/
theorem exists_lexeme_of_mem_placed (offset : Nat) (divided : Divided pieces last)
    {t : PlacedToken} (member : t ∈ placed offset pieces) : ∃ before lexeme after,
      spread pieces last = before ++ (lexeme ++ after) ∧ t.offset = offset + before.length ∧
        Spells Decodes t.token lexeme ∧ Longest t.token lexeme after := by
  induction pieces generalizing offset with
  | nil => cases member
  | cons piece more ih =>
    obtain ⟨-, spells, longest, divided⟩ := divided
    rw [spread_cons]
    rcases List.mem_cons.1 member with rfl | member
    · exact ⟨piece.gap, piece.lexeme, spread more last, rfl, rfl, spells, longest⟩
    · obtain ⟨before, lexeme, after, split, place, found⟩ := ih _ divided member
      refine ⟨piece.text ++ before, lexeme, after, ?_, ?_, found⟩
      · rw [split, Piece.text, List.append_assoc, List.append_assoc]
      · rw [place, List.length_append, Nat.add_assoc]

/-- The tokens of a text are those of the lexemes that it is divided into, each placed where its
lexeme begins. -/
theorem scan_exact (text : List Char) (list : TokenList) :
    scan text = .ok list ↔ ∃ pieces last, text = spread pieces last ∧ Divided pieces last ∧
      list = ⟨placed 0 pieces, text.length⟩ ∧
      ((placed 0 pieces).map PlacedToken.offset ++ [text.length]).Pairwise (· < ·) := by
  constructor
  · intro h
    obtain ⟨pieces, last, rfl, divided, rfl⟩ := exists_divided_of_scan h
    have increasing := (increasing_placed 0 divided).1
    rw [Nat.zero_add] at increasing
    exact ⟨pieces, last, rfl, divided, rfl, increasing⟩
  · rintro ⟨pieces, last, rfl, divided, rfl, -⟩
    exact scan_spread divided

end FormRules.Token
