import FormRules.Proofs.Expr.Exact

/-!
# The names and numbers of an expression

Whatever is parsed has been spelt before. So each name of an expression is made of words, of which
the first is no keyword, and each number is made of digits. An expression that is not parsed may
have names and numbers that no text could spell.
-/

namespace FormRules

open Grammar Token

/-- The names and numbers of an expression can be spelt. -/
inductive Lexical : Expr → Prop
  | boolean {value : Bool} {offset : Nat} : Lexical (.literal (.boolean value) offset)
  | number {digits : String} {offset : Nat} :
    IsNumber digits.toList → Lexical (.literal (.number digits) offset)
  | text {content : String} {offset : Nat} : Lexical (.literal (.text content) offset)
  | reference {first : String} {properties : List String} {offset : Nat} :
    IsName first → IsWord first.toList → (∀ property ∈ properties, IsWord property.toList) →
      Lexical (.reference (".".intercalate (first :: properties)) offset)
  | unary {op : UnaryOp} {operand : Expr} {offset : Nat} :
    Lexical operand → Lexical (.unary op operand offset)
  | binary {op : BinaryOp} {left right : Expr} {offset : Nat} :
    Lexical left → Lexical right → Lexical (.binary op left right offset)
  | call {name : String} {arguments : List Expr} {offset : Nat} :
    IsName name → IsWord name.toList → (∀ e ∈ arguments, Lexical e) →
      Lexical (.call name arguments offset)

namespace Grammar

theorem isWord_of_dotted {properties : List String} (h : ∀ t ∈ dotted properties, Spelled t) :
    ∀ property ∈ properties, IsWord property.toList := by
  intro property member
  refine Spelled.isWord (h _ ?_)
  exact List.mem_flatMap.mpr ⟨property, member, by simp⟩

end Grammar

mutual

theorem Phrase.lexical : {level : Level} → (p : Phrase level) → (∀ t ∈ p.tokens, Spelled t) →
    Lexical p.tree
  | _, .chain _ first more, h => by
    obtain ⟨first_spelled, more_spelled⟩ := List.forall_mem_append.mp h
    exact more.lexical (first.lexical first_spelled) more_spelled
  | _, .applied _ _ _ operand, h => .unary (operand.lexical (List.forall_mem_cons.mp h).2)
  | _, .plain _ operand, h => operand.lexical h
  | _, .single only, h => only.lexical h
  | _, .compared left _ _ _ right, h => by
    obtain ⟨left_spelled, further⟩ := List.forall_mem_append.mp h
    exact .binary (left.lexical left_spelled) (right.lexical (List.forall_mem_cons.mp further).2)
  | _, .number digits, h => .number (Spelled.isNumber (h _ List.mem_cons_self))
  | _, .text content, _ => .text
  | _, .truth value, _ => .boolean
  | _, .group inner, h => by
    obtain ⟨-, further⟩ := List.forall_mem_cons.mp h
    exact inner.lexical (List.forall_mem_append.mp further).1
  | _, .name first isName properties, h => by
    obtain ⟨first_spelled, further⟩ := List.forall_mem_cons.mp h
    exact .reference isName first_spelled.isWord (isWord_of_dotted further)
  | _, .call function isName, h => by
    exact .call isName (Spelled.isWord (h _ List.mem_cons_self)) (fun _ e ↦ nomatch e)
  | _, .callWith function isName arguments, h => by
    obtain ⟨name_spelled, opened⟩ := List.forall_mem_cons.mp h
    obtain ⟨-, further⟩ := List.forall_mem_cons.mp opened
    exact .call isName name_spelled.isWord
      (arguments.lexical (List.forall_mem_append.mp further).1)

theorem Links.lexical : {level inner : Level} → (links : Links level inner) → {left : Expr} →
    Lexical left → (∀ t ∈ links.tokens, Spelled t) → Lexical (links.tree left)
  | _, _, .done, _, lexical, _ => lexical
  | _, _, .link _ _ _ operand more, _, lexical, h => by
    obtain ⟨-, further⟩ := List.forall_mem_cons.mp h
    obtain ⟨operand_spelled, more_spelled⟩ := List.forall_mem_append.mp further
    exact more.lexical (.binary lexical (operand.lexical operand_spelled)) more_spelled

theorem Arguments.lexical : (arguments : Arguments) → (∀ t ∈ arguments.tokens, Spelled t) →
    ∀ e ∈ arguments.trees, Lexical e
  | .last argument, h => List.forall_mem_singleton.mpr (argument.lexical h)
  | .cons argument more, h => by
    obtain ⟨argument_spelled, further⟩ := List.forall_mem_append.mp h
    refine List.forall_mem_cons.mpr ⟨argument.lexical argument_spelled, ?_⟩
    exact more.lexical (List.forall_mem_cons.mp further).2

end

namespace Expr

mutual

theorem lexical_of_forget : (e : Expr) → Lexical e.forget → Lexical e
  | .literal (.boolean _) _, _ => .boolean
  | .literal (.number _) _, h => by
    rw [forget] at h
    cases h with
    | number isNumber => exact .number isNumber
  | .literal (.text _) _, _ => .text
  | .reference name _, h => by
    rw [forget] at h
    cases h with
    | reference isName isWord properties => exact .reference isName isWord properties
  | .unary _ operand _, h => by
    rw [forget] at h
    cases h with
    | unary operand_lexical => exact .unary (lexical_of_forget operand operand_lexical)
  | .binary _ left right _, h => by
    rw [forget] at h
    cases h with
    | binary left_lexical right_lexical =>
      exact .binary (lexical_of_forget left left_lexical) (lexical_of_forget right right_lexical)
  | .call _ arguments _, h => by
    rw [forget] at h
    cases h with
    | call isName isWord each =>
      exact .call isName isWord (lexical_of_forgetAll arguments each)

theorem lexical_of_forgetAll : (list : List Expr) → (∀ e ∈ forgetAll list, Lexical e) →
    ∀ e ∈ list, Lexical e
  | [], _ => fun _ member ↦ nomatch member
  | e :: rest, h => by
    rw [forgetAll] at h
    obtain ⟨first, further⟩ := List.forall_mem_cons.mp h
    exact List.forall_mem_cons.mpr ⟨lexical_of_forget e first, lexical_of_forgetAll rest further⟩

end

/-- What is parsed can be spelt. -/
theorem lexical_of_parse {text : String} {e : Expr} (h : parse text = .ok e) : Lexical e := by
  obtain ⟨list, scanned, made⟩ := exists_ofTokens_of_parse h
  obtain ⟨p, tokens_eq, tree_eq⟩ := ofTokens_sound made
  have reads := reads_iff.mpr ⟨list, scanned, tokens_eq.symm⟩
  exact lexical_of_forget e (tree_eq ▸ p.lexical reads.spelled)

end Expr

end FormRules
