import FormRules.Proofs.Expr.Limits
import FormRules.Proofs.Expr.Unambiguous

/-!
# Operators in parentheses

A phrase belongs to every looser level as it is, so two operands with an operator between them are a
phrase of the level of that operator, and so is an operand after a prefix operator. In parentheses
each of these is an operand again.
-/

namespace FormRules

open Grammar

variable {level inner : Level}

theorem Level.rank_tighter (h : level ≠ .operand) : level.rank = level.tighter.rank + 1 := by
  cases level <;> first | rfl | exact absurd rfl h

theorem Level.eq_of_rank_eq (h : inner.rank = level.rank) : inner = level := by
  cases inner <;> cases level <;> first | rfl | cases h

theorem Grammar.Joins.shape {op : BinaryOp} {sign : Token} (h : Joins level op sign) :
    level = .comparison ∨ ∃ inner, Chained level inner := by
  cases h <;> first | exact .inl rfl | exact .inr ⟨_, by constructor⟩

namespace Phrase

theorem exists_of_tighter (operand : level ≠ .operand) (p : Phrase level.tighter) :
    ∃ q : Phrase level, q.tokens = p.tokens ∧ q.tree = p.tree ∧ q.nesting = p.nesting := by
  cases level with
  | or => exact ⟨.chain .or p .done, List.append_nil _, rfl, Nat.max_zero _⟩
  | and => exact ⟨.chain .and p .done, List.append_nil _, rfl, Nat.max_zero _⟩
  | not => exact ⟨.plain .not p, rfl, rfl, rfl⟩
  | comparison => exact ⟨.single p, rfl, rfl, rfl⟩
  | sum => exact ⟨.chain .sum p .done, List.append_nil _, rfl, Nat.max_zero _⟩
  | product => exact ⟨.chain .product p .done, List.append_nil _, rfl, Nat.max_zero _⟩
  | negation => exact ⟨.plain .negation p, rfl, rfl, rfl⟩
  | operand => exact absurd rfl operand

/-- A phrase belongs to every looser level. -/
theorem exists_looser (level : Level) (p : Phrase inner) (le : inner.rank ≤ level.rank) :
    ∃ q : Phrase level, q.tokens = p.tokens ∧ q.tree = p.tree ∧ q.nesting = p.nesting := by
  by_cases same : inner = level
  · subst same
    exact ⟨p, rfl, rfl, rfl⟩
  · have apart : inner.rank ≠ level.rank := fun e ↦ same (Level.eq_of_rank_eq e)
    have operand : level ≠ .operand := by
      rintro rfl
      exact apart (Nat.le_zero.mp le)
    have rank_eq := Level.rank_tighter operand
    obtain ⟨q, tokens_eq, tree_eq, nesting_eq⟩ := p.exists_looser level.tighter (by omega)
    obtain ⟨r, tokens_eq', tree_eq', nesting_eq'⟩ := exists_of_tighter operand q
    exact ⟨r, tokens_eq'.trans tokens_eq, tree_eq'.trans tree_eq, nesting_eq'.trans nesting_eq⟩
termination_by level.rank
decreasing_by
  rw [rank_eq]
  exact Nat.lt_succ_self _

theorem exists_group (p : Phrase level) : ∃ q : Phrase .operand,
    q.tokens = .leftParen :: (p.tokens ++ [.rightParen]) ∧ q.tree = p.tree ∧
      q.nesting = p.nesting + 1 := by
  obtain ⟨q, tokens_eq, tree_eq, nesting_eq⟩ := p.exists_looser .or level.rank_le
  exact ⟨.group q, by rw [tokens, tokens_eq], tree_eq, by rw [nesting, nesting_eq]⟩

theorem exists_joined {op : BinaryOp} {sign : Token} (spelled : Joins level op sign)
    (l r : Phrase .operand) : ∃ q : Phrase .operand,
      q.tokens = .leftParen :: (l.tokens ++ sign :: (r.tokens ++ [.rightParen])) ∧
        q.tree = .binary op l.tree r.tree 0 ∧ q.nesting = max l.nesting r.nesting + 1 := by
  have joined : ∃ p : Phrase level, p.tokens = l.tokens ++ sign :: r.tokens ∧
      p.tree = .binary op l.tree r.tree 0 ∧ p.nesting = max l.nesting r.nesting := by
    rcases spelled.shape with rfl | ⟨inner, shape⟩
    · obtain ⟨l', left_tokens, left_tree, left_nesting⟩ := l.exists_looser .sum (Nat.zero_le _)
      obtain ⟨r', right_tokens, right_tree, right_nesting⟩ := r.exists_looser .sum (Nat.zero_le _)
      rw [← left_tokens, ← left_tree, ← left_nesting, ← right_tokens, ← right_tree,
        ← right_nesting]
      exact ⟨.compared l' op sign spelled r', rfl, rfl, rfl⟩
    · obtain ⟨l', left_tokens, left_tree, left_nesting⟩ := l.exists_looser inner (Nat.zero_le _)
      obtain ⟨r', right_tokens, right_tree, right_nesting⟩ := r.exists_looser inner (Nat.zero_le _)
      rw [← left_tokens, ← left_tree, ← left_nesting, ← right_tokens, ← right_tree,
        ← right_nesting]
      refine ⟨.chain shape l' (.link op sign spelled r' .done), ?_, rfl, ?_⟩
      · rw [tokens, Links.tokens, Links.tokens, List.append_nil]
      · rw [nesting, Links.nesting, Links.nesting, Nat.max_zero]
  obtain ⟨p, tokens_eq, tree_eq, nesting_eq⟩ := joined
  obtain ⟨q, tokens_eq', tree_eq', nesting_eq'⟩ := p.exists_group
  refine ⟨q, ?_, tree_eq'.trans tree_eq, nesting_eq'.trans (congrArg (· + 1) nesting_eq)⟩
  rw [tokens_eq', tokens_eq, List.append_assoc, List.cons_append]

theorem exists_applied {op : UnaryOp} {sign : Token} (spelled : Applies level op sign)
    (operand : Phrase .operand) : ∃ q : Phrase .operand,
      q.tokens = .leftParen :: sign :: (operand.tokens ++ [.rightParen]) ∧
        q.tree = .unary op operand.tree 0 ∧ q.nesting = operand.nesting + 2 := by
  obtain ⟨p, tokens_eq, tree_eq, nesting_eq⟩ := operand.exists_looser level (Nat.zero_le _)
  obtain ⟨q, tokens_eq', tree_eq', nesting_eq'⟩ := (applied op sign spelled p).exists_group
  rw [← tokens_eq, ← tree_eq, ← nesting_eq]
  exact ⟨q, tokens_eq', tree_eq', nesting_eq'⟩

end Phrase

end FormRules
