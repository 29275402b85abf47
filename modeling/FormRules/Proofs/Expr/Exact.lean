import FormRules.Proofs.Expr.Complete
import FormRules.Proofs.Expr.Sound
import FormRules.Proofs.Token.Layout

/-!
# The parser accepts its grammar

Soundness and completeness meet at the end of the text, after which nothing can go on with a
phrase. What is left to see is that a text of white space, which is refused before it is read, has
no tokens.
-/

namespace FormRules

namespace Expr

open Grammar

variable {list : TokenList} {e : Expr}

theorem ofTokens_placed (h : ofTokens list = .ok e) :
    ∃ p : Phrase .or, p.tokens = list.tokens.map PlacedToken.token ∧
      e = p.treeAt (list.tokens.map PlacedToken.offset) := by
  have spelt := yields_parseAt .or (.start list)
  unfold ofTokens at h
  split at h
  · cases h
  · rename_i node s moved answer
    rw [answer] at spelt
    obtain ⟨p, taken, split_eq, tokens_eq, tree_eq⟩ := spelt
    split at h
    · rename_i ended
      rw [Cursor.peek_eq_head?, List.head?_eq_none_iff] at ended
      rw [List.map_eq_nil_iff.mp ended, List.append_nil] at split_eq
      cases h
      exact ⟨p, by rw [← tokens_eq, ← split_eq]; rfl, tree_eq⟩
    · cases h
    · cases h

theorem ofTokens_sound (h : ofTokens list = .ok e) :
    ∃ p : Phrase .or, p.tokens = list.tokens.map PlacedToken.token ∧ e.forget = p.tree := by
  obtain ⟨p, tokens_eq, rfl⟩ := ofTokens_placed h
  exact ⟨p, tokens_eq, p.forget_treeAt _⟩

/-- The tokens of a phrase make an expression if the phrase keeps the limits. -/
theorem ofTokens_within (p : Phrase .or) (h : p.tokens = list.tokens.map PlacedToken.token) :
    Fits 0 p.nesting p.tree.height ∧ (∃ e, ofTokens list = .ok e) ∨
      ¬Fits 0 p.nesting p.tree.height ∧
        ∃ fault, ofTokens list = .error fault ∧ fault.cause.isLimit = true := by
  have begun : (Cursor.start list).tokens = p.tokens ++ [] := by
    rw [List.append_nil, h]
    rfl
  have ends := ends_parseAt p (stops_nil .or) begun rfl (Nat.zero_le _)
  unfold ofTokens
  split
  · rename_i fault s answer
    rw [answer] at ends
    exact .inr ⟨ends.2, fault, rfl, ends.1⟩
  · rename_i node s moved answer
    rw [answer] at ends
    obtain ⟨taken, -, -, fits⟩ := ends
    have ended : s.peek = none := by rw [Cursor.peek_eq_head?, taken, List.head?_nil]
    rw [ended]
    exact .inl ⟨fits, node.expr, rfl⟩

/-- The tokens of a phrase make the tree of the phrase where they stand, and no other. -/
theorem ofTokens_eq_ok_iff {p : Phrase .or} (h : p.tokens = list.tokens.map PlacedToken.token) :
    ofTokens list = .ok e ↔
      Fits 0 p.nesting p.tree.height ∧ e = p.treeAt (list.tokens.map PlacedToken.offset) := by
  have made : ∀ e, ofTokens list = .ok e → e = p.treeAt (list.tokens.map PlacedToken.offset) := by
    intro e accepted
    obtain ⟨q, spelt, rfl⟩ := ofTokens_placed accepted
    rw [Phrase.eq_of_tokens_eq (spelt.trans h.symm)]
  rcases ofTokens_within p h with ⟨fits, e', accepted⟩ | ⟨exceeded, fault, refused, -⟩
  · refine ⟨fun accepted' ↦ ⟨fits, made e accepted'⟩, ?_⟩
    rintro ⟨-, rfl⟩
    rw [accepted, made e' accepted]
  · rw [refused]
    exact iff_of_false (fun accepted ↦ nomatch accepted) fun fits ↦ exceeded fits.1

theorem ofTokens_complete (p : Phrase .or) (h : p.tokens = list.tokens.map PlacedToken.token) :
    (∃ e, ofTokens list = .ok e) ∨
      ∃ fault, ofTokens list = .error fault ∧ fault.cause.isLimit = true :=
  (ofTokens_within p h).imp And.right And.right

theorem tokens_eq_nil {text : String} (blank : text.toList.all Text.isBlank = true)
    (scanned : Token.scan text.toList = .ok list) : list.tokens = [] := by
  have divided : Token.Divided [] text.toList := List.all_eq_true.mp blank
  cases (Token.scan_spread divided).symm.trans scanned
  rfl

theorem parse_eq {text : String} (scanned : Token.scan text.toList = .ok list)
    (nonblank : ¬text.toList.all Text.isBlank = true) : parse text = ofTokens list := by
  rw [parse, if_neg nonblank, scanned]
  rfl

/-- A computation has succeeded if something is known of its outcome. -/
theorem exists_of_toOption_map {ε α β : Type} {x : Except ε α} {f : α → β} {b : β}
    (h : x.toOption.map f = some b) : ∃ a, x = .ok a ∧ f a = b := by
  cases x with
  | error fault => cases h
  | ok a => exact ⟨a, rfl, Option.some.inj h⟩

/-- What is parsed has tokens from which it is made. -/
theorem exists_ofTokens_of_parse {text : String} (h : parse text = .ok e) :
    ∃ list, Token.scan text.toList = .ok list ∧ ofTokens list = .ok e := by
  by_cases blank : text.toList.all Text.isBlank = true
  · rw [parse, if_pos blank] at h
    cases h
  · cases scanned : Token.scan text.toList with
    | error fault =>
      rw [parse, if_neg blank, scanned] at h
      cases h
    | ok list => exact ⟨list, rfl, (parse_eq scanned blank).symm.trans h⟩

/-- A text that has tokens and exceeds no limit is parsed if and only if its tokens are those of a
phrase, and then there is one such phrase and its tree is the answer. -/
theorem parse_exact (text : String) (list : TokenList)
    (scanned : Token.scan text.toList = .ok list)
    (unlimited : ∀ fault, parse text = .error fault → fault.cause.isLimit = false) :
    ((∃ e, parse text = .ok e) ↔
      ∃ p : Phrase .or, p.tokens = list.tokens.map PlacedToken.token) ∧
    ∀ e, parse text = .ok e →
      ∃ p : Phrase .or, p.tokens = list.tokens.map PlacedToken.token ∧
        (∀ q : Phrase .or, q.tokens = list.tokens.map PlacedToken.token → q = p) ∧
        e.forget = p.tree := by
  by_cases blank : text.toList.all Text.isBlank = true
  -- A blank text has no tokens, and every phrase has some.
  · have refused : parse text = .error ⟨.blank, 0⟩ := if_pos blank
    rw [refused, tokens_eq_nil blank scanned]
    refine ⟨⟨?_, ?_⟩, ?_⟩
    · rintro ⟨e, h⟩
      cases h
    · rintro ⟨p, h⟩
      obtain ⟨t, rest, head, -⟩ := p.exists_head
      rw [head] at h
      cases h
    · intro e h
      cases h
  · rw [parse_eq scanned blank] at unlimited ⊢
    refine ⟨⟨?_, ?_⟩, ?_⟩
    · rintro ⟨e, h⟩
      obtain ⟨p, tokens_eq, -⟩ := ofTokens_sound h
      exact ⟨p, tokens_eq⟩
    · rintro ⟨p, tokens_eq⟩
      rcases ofTokens_complete p tokens_eq with accepted | ⟨fault, refused, limit⟩
      · exact accepted
      · rw [unlimited fault refused] at limit
        cases limit
    · intro e h
      obtain ⟨p, tokens_eq, tree_eq⟩ := ofTokens_sound h
      refine ⟨p, tokens_eq, ?_, tree_eq⟩
      exact fun q same ↦ Phrase.eq_of_tokens_eq (same.trans tokens_eq.symm)

/-- After a dot a keyword is a property, and no other derivation takes it for an operator. -/
theorem parse_exact_keyword_property :
    ∃ e, parse "a.or < -f(1)" = .ok e ∧
      ∃ p : Phrase .or,
        p.tokens = [.word "a", .dot, .word "or", .less, .minus, .word "f", .leftParen,
          .number "1", .rightParen] ∧
        (∀ q : Phrase .or, q.tokens = p.tokens → q = p) ∧ e.forget = p.tree := by
  have accepted : (parse "a.or < -f(1)").isOk = true := by decide +kernel
  have tokens_eq : (Token.scan "a.or < -f(1)".toList).toOption.map
      (fun list ↦ list.tokens.map PlacedToken.token) =
        some [.word "a", .dot, .word "or", .less, .minus, .word "f", .leftParen, .number "1",
          .rightParen] := by decide +kernel
  cases scanned : Token.scan "a.or < -f(1)".toList with
  | error fault =>
    rw [scanned] at tokens_eq
    cases tokens_eq
  | ok list =>
    rw [scanned] at tokens_eq
    have law := parse_exact "a.or < -f(1)" list scanned
    cases parsed : parse "a.or < -f(1)" with
    | error fault =>
      rw [parsed] at accepted
      cases accepted
    | ok e =>
      rw [parsed] at law
      obtain ⟨p, spelled, unique, tree_eq⟩ := (law fun _ refused ↦ by cases refused).2 e rfl
      refine ⟨e, rfl, p, spelled.trans (Option.some.inj tokens_eq), ?_, tree_eq⟩
      intro q same
      exact unique q (same.trans spelled)

end Expr

end FormRules
