import FormRules.Proofs.Expr.Enclosed
import FormRules.Proofs.Expr.Exact

/-!
# What the limits refuse

The two limits are all that keeps a phrase from being parsed. The parser counts the height of a tree
while the tree grows and the nesting while it descends, and both counts are those of the phrase.
-/

namespace FormRules

open Grammar

namespace Expr

mutual

theorem height_forget : (e : Expr) → e.forget.height = e.height
  | .literal _ _ | .reference _ _ => rfl
  | .unary _ operand _ => by rw [forget, height, height, height_forget operand]
  | .binary _ left right _ => by
    rw [forget, height, height, height_forget left, height_forget right]
  | .call _ arguments _ => by rw [forget, height, height, heightAll_forgetAll arguments]

theorem heightAll_forgetAll : (list : List Expr) → heightAll (forgetAll list) = heightAll list
  | [] => rfl
  | e :: rest => by
    rw [forgetAll, heightAll, heightAll, height_forget e, heightAll_forgetAll rest]

end

/-- What is parsed from tokens keeps the limit on height. -/
theorem height_le_of_ofTokens {list : TokenList} {e : Expr} (h : ofTokens list = .ok e) :
    e.height ≤ maxHeight := by
  obtain ⟨p, spelt, tree_eq⟩ := ofTokens_sound h
  rw [← height_forget, tree_eq]
  exact ((ofTokens_eq_ok_iff spelt).mp h).1.2

theorem nonblank_of_tokens {text : String} {list : TokenList} (p : Phrase .or)
    (scanned : Token.scan text.toList = .ok list)
    (spelt : p.tokens = list.tokens.map PlacedToken.token) :
    ¬text.toList.all Text.isBlank = true := by
  intro blank
  obtain ⟨t, rest, head, -⟩ := p.exists_head
  rw [tokens_eq_nil blank scanned, head] at spelt
  cases spelt

/-- A text whose tokens are those of a phrase is parsed if and only if the phrase nests at most 64
levels and its tree is at most 256 high. Otherwise one of these limits is reported. So no tree that
is ever parsed is higher. -/
theorem parse_limits_exact :
    (∀ (text : String) (list : TokenList) (p : Phrase .or),
      Token.scan text.toList = .ok list → p.tokens = list.tokens.map PlacedToken.token →
        ((∃ e, parse text = .ok e) ↔ p.nesting ≤ 64 ∧ p.tree.height ≤ 256) ∧
        (¬(p.nesting ≤ 64 ∧ p.tree.height ≤ 256) →
          ∃ fault, parse text = .error fault ∧ fault.cause.isLimit = true)) ∧
    ∀ (text : String) (e : Expr), parse text = .ok e → e.height ≤ 256 := by
  refine ⟨fun text list p scanned spelt ↦ ?_, fun text e h ↦ ?_⟩
  · have fits_iff : Fits 0 p.nesting p.tree.height ↔ p.nesting ≤ 64 ∧ p.tree.height ≤ 256 := by
      rw [Fits, Nat.zero_add]
      rfl
    have within := ofTokens_within p spelt
    rw [fits_iff] at within
    rw [parse_eq scanned (nonblank_of_tokens p scanned spelt)]
    rcases within with ⟨fits, accepted⟩ | ⟨exceeded, fault, refused, limit⟩
    · exact ⟨iff_of_true accepted fits, fun exceeded ↦ absurd fits exceeded⟩
    · refine ⟨iff_of_false ?_ exceeded, fun _ ↦ ⟨fault, refused, limit⟩⟩
      rintro ⟨e, accepted⟩
      cases accepted.symm.trans refused
  · obtain ⟨list, -, made⟩ := exists_ofTokens_of_parse h
    exact height_le_of_ofTokens made

/-- An empty argument list counts as a level, so it fits after 63 prefix operators but not after
64. -/
theorem parse_limits_exact_of_empty_arguments :
    (∃ e, parse (String.ofList (List.replicate 63 '!' ++ "f()".toList)) = .ok e) ∧
    ∃ fault, parse (String.ofList (List.replicate 64 '!' ++ "f()".toList)) = .error fault ∧
      fault.cause.isLimit = true := by
  have phrase : ∀ n, ∃ p : Phrase .not,
      p.tokens = List.replicate n .not ++ [.word "f", .leftParen, .rightParen] ∧
        p.nesting = n + 1 ∧ p.tree.height = n + 1 := by
    intro n
    induction n with
    | zero =>
      obtain ⟨p, tokens_eq, tree_eq, nesting_eq⟩ :=
        (Phrase.call "f" (isName_iff.mpr (by decide))).exists_looser .not (Nat.zero_le _)
      exact ⟨p, tokens_eq, nesting_eq, by rw [tree_eq]; rfl⟩
    | succ n ih =>
      obtain ⟨p, tokens_eq, nesting_eq, height_eq⟩ := ih
      refine ⟨.applied .not .not .notSign p, ?_, ?_, ?_⟩
      · rw [Phrase.tokens, tokens_eq, List.replicate_succ, List.cons_append]
      · rw [Phrase.nesting, nesting_eq]
      · rw [Phrase.tree, height, height_eq]
  have read : ∀ n ∈ [63, 64],
      Token.Reads (String.ofList (List.replicate n '!' ++ "f()".toList)).toList
        (List.replicate n .not ++ [.word "f", .leftParen, .rightParen]) := by decide +kernel
  have spelt : ∀ n ∈ [63, 64], ∃ (list : TokenList) (p : Phrase .or),
      Token.scan (String.ofList (List.replicate n '!' ++ "f()".toList)).toList = .ok list ∧
        p.tokens = list.tokens.map PlacedToken.token ∧
          p.nesting = n + 1 ∧ p.tree.height = n + 1 := by
    intro n member
    obtain ⟨p, tokens_eq, nesting_eq, height_eq⟩ := phrase n
    obtain ⟨q, tokens_eq', tree_eq, nesting_eq'⟩ := p.exists_looser .or (by decide)
    obtain ⟨list, scanned, list_eq⟩ := Token.reads_iff.mp (read n member)
    exact ⟨list, q, scanned, by rw [tokens_eq', tokens_eq, list_eq],
      by rw [nesting_eq', nesting_eq], by rw [tree_eq, height_eq]⟩
  obtain ⟨list, p, scanned, tokens_eq, nesting_eq, height_eq⟩ := spelt 63 (by decide)
  obtain ⟨list', p', scanned', tokens_eq', nesting_eq', height_eq'⟩ := spelt 64 (by decide)
  constructor
  · exact ((parse_limits_exact.1 _ list p scanned tokens_eq).1).mpr (by omega)
  · exact (parse_limits_exact.1 _ list' p' scanned' tokens_eq').2 (by omega)

end Expr

end FormRules
