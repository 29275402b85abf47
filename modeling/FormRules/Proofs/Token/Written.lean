import FormRules.Proofs.Token.Layout

/-!
# Reading tokens that have been written

Tokens can be written one after the other with white space between them, and are then read again as
they are. White space ends every lexeme, and a text can stand between either kind of quote if that
quote and every backslash are escaped.
-/

namespace FormRules.Token

open FormRules.Text

variable {c quote : Char} {last after cs : List Char} {token : Token} {pieces : List Piece}

/-- A character of a text between quotes. -/
def escape (quote c : Char) : List Char := if c = '\\' ∨ c = quote then ['\\', c] else [c]

/-- What stands between quotes for a content if nothing is escaped but what must be. -/
def Escaped (quote : Char) (body content : List Char) : Prop :=
  body = content.flatMap (escape quote)

theorem decodes_of_escaped (isQuote : quote = '"' ∨ quote = '\'') {body content : List Char}
    (h : Escaped quote body content) : Decodes quote body content := by
  subst h
  induction content with
  | nil => exact .done
  | cons c content ih =>
    rw [List.flatMap_cons, escape]
    split
    · next special =>
      have itself : Escapes c [c] := by
        rcases special with rfl | rfl
        · exact .itself (.inr (.inr rfl))
        · exact .itself (isQuote.imp_right .inl)
      exact .escape itself ih
    · next plain =>
      rw [not_or] at plain
      exact .plain plain.2 plain.1 ih

theorem longest_of_blank (h : ∀ c ∈ after.head?, isBlank c = true) : Longest token cs after := by
  cases token with
  | word w => exact fun c next ↦ continuesWord_of_isBlank (h c next)
  | number digits =>
    constructor
    · intro c next
      obtain ⟨letter, -, digit⟩ := blank_apart (h c next)
      exact ⟨digit, letter, (blank_ne (h c next)).1⟩
    · rintro - d rest rfl
      exact absurd (h '.' rfl) (by decide)
  | text content => trivial
  | _ =>
    exact fun _ next ↦ absurd (h '=' next) (by decide)

theorem head?_spread_blank (blank : ∀ piece ∈ pieces, IsGap piece.gap)
    (separated : ∀ piece ∈ pieces, piece.gap ≠ []) (blank_last : IsGap last) :
    ∀ c ∈ (spread pieces last).head?, isBlank c = true := by
  intro c first
  cases pieces with
  | nil => exact blank_last c (List.mem_of_head? first)
  | cons piece more =>
    obtain ⟨gap_blank, -⟩ := List.forall_mem_cons.1 blank
    obtain ⟨d, gap, gap_eq⟩ := List.exists_cons_of_ne_nil (separated piece List.mem_cons_self)
    rw [spread_cons, gap_eq, List.cons_append, List.head?_cons, Option.mem_some_iff] at first
    exact gap_blank c (by rw [gap_eq, first]; exact List.mem_cons_self)

/-- Tokens that are written with white space between them are read again, each where it begins. -/
theorem scan_written (pieces : List Piece) (last : List Char)
    (spells : ∀ piece ∈ pieces, Spells Escaped piece.token piece.lexeme)
    (blank : ∀ piece ∈ pieces, IsGap piece.gap)
    (separated : ∀ piece ∈ pieces.tail, piece.gap ≠ [])
    (blank_last : IsGap last) :
    scan (spread pieces last) = .ok ⟨placed 0 pieces, (spread pieces last).length⟩ := by
  have divided : Divided pieces last := by
    induction pieces with
    | nil => exact blank_last
    | cons piece more ih =>
      obtain ⟨gap_blank, more_blank⟩ := List.forall_mem_cons.1 blank
      obtain ⟨written, more_written⟩ := List.forall_mem_cons.1 spells
      rw [List.tail_cons] at separated
      refine ⟨gap_blank, written.imp fun _ _ _ isQuote ↦ decodes_of_escaped isQuote, ?_, ?_⟩
      · exact longest_of_blank (head?_spread_blank more_blank separated blank_last)
      · exact ih more_written more_blank fun q member ↦ separated q (List.mem_of_mem_tail member)
  exact scan_spread divided

/-- A text with the quote that it stands between and a line break in it, and signs of one and of two
characters. -/
theorem scan_written_of_each_kind :
    scan " naïve ≠\t'it\\'s\n' && 1.50".toList =
      .ok ⟨[⟨.word "naïve", 1⟩, ⟨.notEqual, 7⟩, ⟨.text "it's\n", 9⟩, ⟨.and, 18⟩,
        ⟨.number "1.50", 21⟩], 25⟩ := by
  let pieces : List Piece :=
    [⟨[' '], ['n', 'a', 'ï', 'v', 'e'], .word "naïve"⟩, ⟨[' '], ['≠'], .notEqual⟩,
      ⟨['\t'], '\'' :: (['i', 't', '\\', '\'', 's', '\n'] ++ ['\'']), .text "it's\n"⟩,
      ⟨[' '], ['&', '&'], .and⟩, ⟨[' '], ['1'] ++ '.' :: ['5', '0'], .number "1.50"⟩]
  have word : Spells Escaped (.word "naïve") ['n', 'a', 'ï', 'v', 'e'] :=
    ⟨rfl, (by decide +kernel : IsWord ['n', 'a', 'ï', 'v', 'e'])⟩
  have text : Spells Escaped (.text "it's\n")
      ('\'' :: (['i', 't', '\\', '\'', 's', '\n'] ++ ['\''])) :=
    ⟨'\'', _, .inr rfl, by rw [Escaped]; decide, rfl⟩
  have number : Spells Escaped (.number "1.50") (['1'] ++ '.' :: ['5', '0']) :=
    ⟨rfl, .decimal (by decide : IsDigits ['1']) (by decide : IsDigits ['5', '0'])⟩
  have spells : ∀ piece ∈ pieces, Spells Escaped piece.token piece.lexeme := by
    intro piece member
    simp only [pieces, List.mem_cons, List.not_mem_nil, or_false] at member
    rcases member with rfl | rfl | rfl | rfl | rfl
    · exact word
    · exact spells_sign Escaped (by decide)
    · exact text
    · exact spells_sign Escaped (by decide)
    · exact number
  exact scan_written pieces [] spells (by decide) (by decide) (by decide)

end FormRules.Token
