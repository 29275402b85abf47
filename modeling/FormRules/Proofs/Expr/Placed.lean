import FormRules.Proofs.Expr.Grammar

/-!
# Where a phrase stands

The tokens of a phrase have offsets, and each node of its tree has that of one of them: an operator
that of its sign, anything else that of its first token. A part of a phrase is given the offsets
from its own first token on, which may go on beyond it.
-/

namespace FormRules

open Grammar

mutual

/-- The tree that a phrase builds, given the offsets of its tokens and of what follows. -/
def Phrase.treeAt : {level : Level} → Phrase level → List Nat → Expr
  | _, .chain _ first more, offsets =>
    more.treeAt (first.treeAt offsets) (offsets.drop first.tokens.length)
  | _, .applied op _ _ operand, offsets =>
    .unary op (operand.treeAt offsets.tail) (offsets.headD 0)
  | _, .plain _ operand, offsets => operand.treeAt offsets
  | _, .single only, offsets => only.treeAt offsets
  | _, .compared left op _ _ right, offsets =>
    .binary op (left.treeAt offsets) (right.treeAt (offsets.drop left.tokens.length).tail)
      ((offsets.drop left.tokens.length).headD 0)
  | _, .number digits, offsets => .literal (.number digits) (offsets.headD 0)
  | _, .text content, offsets => .literal (.text content) (offsets.headD 0)
  | _, .truth value, offsets => .literal (.boolean value) (offsets.headD 0)
  | _, .group inner, offsets => inner.treeAt offsets.tail
  | _, .name first _ properties, offsets =>
    .reference (".".intercalate (first :: properties)) (offsets.headD 0)
  | _, .call function _, offsets => .call function [] (offsets.headD 0)
  | _, .callWith function _ arguments, offsets =>
    .call function (arguments.treesAt offsets.tail.tail) (offsets.headD 0)

/-- The tree of a chain, given the tree of what stands to the left. -/
def Links.treeAt : {level inner : Level} → Links level inner → Expr → List Nat → Expr
  | _, _, .done, left, _ => left
  | _, _, .link op _ _ operand more, left, offsets =>
    more.treeAt (.binary op left (operand.treeAt offsets.tail) (offsets.headD 0))
      (offsets.tail.drop operand.tokens.length)

def Arguments.treesAt : Arguments → List Nat → List Expr
  | .last argument, offsets => [argument.treeAt offsets]
  | .cons argument more, offsets =>
    argument.treeAt offsets :: more.treesAt (offsets.drop argument.tokens.length).tail

end

mutual

/-- Offsets aside, a phrase builds the same tree wherever it stands. -/
theorem Phrase.forget_treeAt : {level : Level} → (p : Phrase level) → (offsets : List Nat) →
    (p.treeAt offsets).forget = p.tree
  | _, .chain _ first more, offsets => by
    rw [Phrase.treeAt, more.forget_treeAt, first.forget_treeAt, Phrase.tree]
  | _, .applied _ _ _ operand, offsets => by
    rw [Phrase.treeAt, Expr.forget, operand.forget_treeAt, Phrase.tree]
  | _, .plain _ operand, offsets => operand.forget_treeAt offsets
  | _, .single only, offsets => only.forget_treeAt offsets
  | _, .compared left _ _ _ right, offsets => by
    rw [Phrase.treeAt, Expr.forget, left.forget_treeAt, right.forget_treeAt, Phrase.tree]
  | _, .number _, _ | _, .text _, _ | _, .truth _, _ | _, .name _ _ _, _ => rfl
  | _, .group inner, offsets => inner.forget_treeAt offsets.tail
  | _, .call _ _, _ => rfl
  | _, .callWith _ _ arguments, offsets => by
    rw [Phrase.treeAt, Expr.forget, arguments.forget_treesAt, Phrase.tree]

theorem Links.forget_treeAt : {level inner : Level} → (links : Links level inner) →
    (left : Expr) → (offsets : List Nat) →
      (links.treeAt left offsets).forget = links.tree left.forget
  | _, _, .done, left, offsets => rfl
  | _, _, .link _ _ _ operand more, left, offsets => by
    rw [Links.treeAt, more.forget_treeAt, Expr.forget, operand.forget_treeAt, Links.tree]

theorem Arguments.forget_treesAt : (arguments : Arguments) → (offsets : List Nat) →
    Expr.forgetAll (arguments.treesAt offsets) = arguments.trees
  | .last argument, offsets => by
    rw [Arguments.treesAt, Expr.forgetAll, Expr.forgetAll, argument.forget_treeAt, Arguments.trees]
  | .cons argument more, offsets => by
    rw [Arguments.treesAt, Expr.forgetAll, argument.forget_treeAt, more.forget_treesAt,
      Arguments.trees]

end

namespace Grammar

/-- After the tokens that have been taken come the offsets of the others. -/
theorem drop_offsets {taken rest : List PlacedToken} {tokens : List Token}
    (h : taken.map PlacedToken.token = tokens) :
    ((taken ++ rest).map PlacedToken.offset).drop tokens.length =
      rest.map PlacedToken.offset := by
  have length_eq : (taken.map PlacedToken.offset).length = tokens.length := by
    rw [← h, List.length_map, List.length_map]
  rw [List.map_append, List.drop_left' length_eq]

end Grammar

end FormRules
