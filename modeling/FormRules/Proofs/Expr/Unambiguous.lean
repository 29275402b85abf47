import FormRules.Proofs.Expr.Grammar

/-!
# No expression has two derivations

What may follow a phrase is decided by its level: a dot, an opening parenthesis or an operator of
the level or a tighter one would still belong to it. Two phrases of a level that begin the same list
of tokens and both end before something that cannot go on with them are one phrase.
-/

namespace FormRules

namespace Grammar

variable {level level' inner : Level} {op op' : BinaryOp} {t : Token} {rest : List Token}

theorem Chained.rank_lt (h : Chained level inner) : inner.rank < level.rank := by
  cases h <;> decide

theorem Prefixed.rank_lt (h : Prefixed level inner) : inner.rank < level.rank := by
  cases h <;> decide

theorem Chained.inner_eq {inner' : Level} (h : Chained level inner) (h' : Chained level inner') :
    inner = inner' := by
  cases h <;> cases h' <;> rfl

theorem Prefixed.inner_eq {inner' : Level} (h : Prefixed level inner)
    (h' : Prefixed level inner') : inner = inner' := by
  cases h <;> cases h' <;> rfl

theorem Joins.unique (h : Joins level op t) (h' : Joins level' op' t) :
    level = level' ∧ op = op' := by
  generalize same : t = t' at h'
  cases h <;> cases h' <;> first | exact ⟨rfl, rfl⟩ | simp at same

theorem Applies.op_eq {op op' : UnaryOp} (h : Applies level op t) (h' : Applies level op' t) :
    op = op' := by
  cases h <;> cases h' <;> rfl

/-! ## What may follow -/

/-- A token may go on with a phrase of a level. -/
def Continues (level : Level) (t : Token) : Prop :=
  t = .dot ∨ t = .leftParen ∨ ∃ inner op, inner.rank ≤ level.rank ∧ Joins inner op t

/-- What follows does not go on with a phrase of a level. -/
def Stops (level : Level) (rest : List Token) : Prop := ∀ t ∈ rest.head?, ¬Continues level t

theorem Stops.mono (h : Stops level rest) (le : inner.rank ≤ level.rank) : Stops inner rest := by
  intro t ht continues
  refine h t ht ?_
  rcases continues with e | e | ⟨tighter, op, le', joins⟩
  · exact .inl e
  · exact .inr (.inl e)
  · exact .inr (.inr ⟨tighter, op, Nat.le_trans le' le, joins⟩)

theorem stops_nil (level : Level) : Stops level [] := by
  intro t ht
  cases ht

theorem stops_cons (h : ¬Continues level t) : Stops level (t :: rest) := by
  intro t' ht
  cases ht
  exact h

theorem stops_rightParen (level : Level) : Stops level (.rightParen :: rest) := by
  refine stops_cons ?_
  rintro (e | e | ⟨inner, op, -, joins⟩)
  · cases e
  · cases e
  · cases joins

theorem stops_comma (level : Level) : Stops level (.comma :: rest) := by
  refine stops_cons ?_
  rintro (e | e | ⟨inner, op, -, joins⟩)
  · cases e
  · cases e
  · cases joins

/-- An operator ends the operand to its left. -/
theorem Joins.stops (h : Joins level op t) (lt : inner.rank < level.rank) :
    Stops inner (t :: rest) := by
  refine stops_cons ?_
  rintro (e | e | ⟨tighter, op', le, joins⟩)
  · subst e
    cases h
  · subst e
    cases h
  · obtain ⟨rfl, -⟩ := h.unique joins
    omega

theorem not_joins_of_stops (h : Stops level (t :: rest)) (op : BinaryOp) : ¬Joins level op t :=
  fun joins ↦ h t rfl (.inr (.inr ⟨level, op, Nat.le_refl _, joins⟩))

theorem Stops.ne_dot (h : Stops level (t :: rest)) : t ≠ .dot := fun e ↦ h t rfl (.inl e)

theorem Stops.ne_leftParen (h : Stops level (t :: rest)) : t ≠ .leftParen :=
  fun e ↦ h t rfl (.inr (.inl e))

/-! ## What may begin -/

/-- Whether a token may begin a phrase of a level. -/
def begins (level : Level) : Token → Bool
  | .number _ | .text _ | .leftParen => true
  | .minus => 1 ≤ level.rank
  | .not => 5 ≤ level.rank
  | .word w => w ≠ "and" && w ≠ "or" && (w ≠ "not" || 5 ≤ level.rank)
  | _ => false

theorem begins_mono (h : begins inner t = true) (le : inner.rank ≤ level.rank) :
    begins level t = true := by
  have further : ∀ n, n ≤ inner.rank → n ≤ level.rank := fun n hn ↦ Nat.le_trans hn le
  cases t with
  | number | text | leftParen => rfl
  | minus => exact decide_eq_true (further 1 (of_decide_eq_true h))
  | not => exact decide_eq_true (further 5 (of_decide_eq_true h))
  | word w =>
    simp only [begins, Bool.and_eq_true, Bool.or_eq_true, decide_eq_true_eq] at h ⊢
    exact ⟨h.1, h.2.imp_right (further 5)⟩
  | _ => cases h

theorem begins_of_isName {w : String} (h : IsName w) : begins level (.word w) = true := by
  obtain ⟨hand, hor, hnot, -⟩ := h
  simp [begins, hand, hor, hnot]

/-- A prefix operator begins no phrase of the level below its own. -/
theorem Applies.not_begins {op : UnaryOp} (h : Applies level op t) (shape : Prefixed level inner) :
    begins inner t = false := by
  cases h <;> cases shape <;> decide

/-! ## What names spell -/

/-- A name goes on as long as dots do. -/
theorem dotted_unique {properties properties' : List String} {rest rest' : List Token}
    (h : Stops level rest) (h' : Stops level rest')
    (e : dotted properties ++ rest = dotted properties' ++ rest') :
    properties = properties' ∧ rest = rest' := by
  induction properties generalizing properties' with
  | nil =>
    cases properties' with
    | nil => exact ⟨rfl, e⟩
    | cons property' properties' =>
      rw [dotted_nil, List.nil_append] at e
      rw [e] at h
      exact absurd rfl h.ne_dot
  | cons property properties ih =>
    cases properties' with
    | nil =>
      rw [dotted_nil, List.nil_append] at e
      rw [← e] at h'
      exact absurd rfl h'.ne_dot
    | cons property' properties' =>
      rw [dotted_cons, dotted_cons] at e
      injection e with _ e
      injection e with same e
      obtain ⟨rfl, rfl⟩ := ih e
      injection same with same
      exact ⟨same ▸ rfl, rfl⟩

theorem dotted_ne_leftParen {properties : List String} {rest : List Token} (h : Stops level rest)
    (tail : List Token) : dotted properties ++ rest ≠ .leftParen :: tail := by
  intro e
  cases properties with
  | nil =>
    rw [dotted_nil, List.nil_append] at e
    rw [e] at h
    exact h.ne_leftParen rfl
  | cons property properties =>
    injection e with e
    cases e

end Grammar

open Grammar

theorem Phrase.exists_head : {level : Level} → (p : Phrase level) →
    ∃ t rest, p.tokens = t :: rest ∧ begins level t = true
  | _, .chain shape first more => by
    obtain ⟨t, rest, e, h⟩ := first.exists_head
    refine ⟨t, rest ++ more.tokens, ?_, begins_mono h (Nat.le_of_lt shape.rank_lt)⟩
    rw [Phrase.tokens, e, List.cons_append]
  | _, .applied op sign spelled operand => by
    refine ⟨sign, operand.tokens, rfl, ?_⟩
    cases spelled <;> decide
  | _, .plain shape operand => by
    obtain ⟨t, rest, e, h⟩ := operand.exists_head
    exact ⟨t, rest, e, begins_mono h (Nat.le_of_lt shape.rank_lt)⟩
  | _, .single only => by
    obtain ⟨t, rest, e, h⟩ := only.exists_head
    exact ⟨t, rest, e, begins_mono h (by decide)⟩
  | _, .compared left op sign spelled right => by
    obtain ⟨t, rest, e, h⟩ := left.exists_head
    refine ⟨t, rest ++ sign :: right.tokens, ?_, begins_mono h (by decide)⟩
    rw [Phrase.tokens, e, List.cons_append]
  | _, .number digits => ⟨_, _, rfl, rfl⟩
  | _, .text content => ⟨_, _, rfl, rfl⟩
  | _, .truth value => ⟨_, _, rfl, by cases value <;> decide⟩
  | _, .group inner => ⟨_, _, rfl, rfl⟩
  | _, .name first isName properties => ⟨_, _, rfl, begins_of_isName isName⟩
  | _, .call function isName => ⟨_, _, rfl, begins_of_isName isName⟩
  | _, .callWith function isName arguments => ⟨_, _, rfl, begins_of_isName isName⟩

/-- What follows the first operand of a chain ends it. -/
theorem Links.stops {level inner : Level} (links : Links level inner) {rest : List Token}
    (lt : inner.rank < level.rank) (h : Stops level rest) :
    Stops inner (links.tokens ++ rest) := by
  cases links with
  | done => exact h.mono (Nat.le_of_lt lt)
  | link op sign spelled operand more => exact spelled.stops lt

theorem Arguments.exists_head (arguments : Arguments) :
    ∃ t rest, arguments.tokens = t :: rest ∧ begins .or t = true := by
  cases arguments with
  | last argument => exact argument.exists_head
  | cons argument more =>
    obtain ⟨t, rest, e, h⟩ := argument.exists_head
    refine ⟨t, rest ++ .comma :: more.tokens, ?_, h⟩
    rw [Arguments.tokens, e, List.cons_append]

theorem Arguments.ne_rightParen (arguments : Arguments) (rest tail : List Token) :
    arguments.tokens ++ rest ≠ .rightParen :: tail := by
  obtain ⟨t, rest, e, h⟩ := arguments.exists_head
  intro same
  rw [e] at same
  injection same with same
  rw [same] at h
  cases h

/-! ## The productions of the two levels with their own -/

@[elab_as_elim]
theorem Phrase.comparisonCases {motive : Phrase .comparison → Prop} (q : Phrase .comparison)
    (single : ∀ only, motive (.single only))
    (compared : ∀ left op sign spelled right, motive (.compared left op sign spelled right)) :
    motive q := by
  cases q with
  | single only => exact single only
  | compared left op sign spelled right => exact compared left op sign spelled right
  | chain shape => cases shape
  | applied op sign spelled => cases spelled
  | plain shape => cases shape

@[elab_as_elim]
theorem Phrase.operandCases {motive : Phrase .operand → Prop} (q : Phrase .operand)
    (number : ∀ digits, motive (.number digits)) (text : ∀ content, motive (.text content))
    (truth : ∀ value, motive (.truth value)) (group : ∀ inner, motive (.group inner))
    (name : ∀ first isName properties, motive (.name first isName properties))
    (call : ∀ function isName, motive (.call function isName))
    (callWith : ∀ function isName arguments, motive (.callWith function isName arguments)) :
    motive q := by
  cases q with
  | number digits => exact number digits
  | text content => exact text content
  | truth value => exact truth value
  | group inner => exact group inner
  | name first isName properties => exact name first isName properties
  | call function isName => exact call function isName
  | callWith function isName arguments => exact callWith function isName arguments
  | chain shape => cases shape
  | applied op sign spelled => cases spelled
  | plain shape => cases shape

/-- No name begins like a truth value. -/
theorem Grammar.IsName.head_ne_truth {w : String} (h : IsName w) (value : Bool)
    {tail tail' : List Token} :
    Token.word w :: tail ≠ .word (if value then "true" else "false") :: tail' := by
  obtain ⟨-, -, -, htrue, hfalse⟩ := h
  intro e
  injection e with same
  injection same with same
  cases value
  · exact hfalse same
  · exact htrue same

mutual

theorem Phrase.unique : {level : Level} → (p q : Phrase level) → {rest rest' : List Token} →
    Stops level rest → Stops level rest' → p.tokens ++ rest = q.tokens ++ rest' →
      p = q ∧ rest = rest'
  | _, .chain shape first more, q, rest, rest', h, h', e => by
    cases q with
    | chain shape' first' more' =>
      obtain rfl := shape.inner_eq shape'
      rw [Phrase.tokens, Phrase.tokens, List.append_assoc, List.append_assoc] at e
      obtain ⟨rfl, tail⟩ := first.unique first' (more.stops shape.rank_lt h)
        (more'.stops shape.rank_lt h') e
      obtain ⟨rfl, rfl⟩ := more.unique more' shape.rank_lt h h' tail
      exact ⟨rfl, rfl⟩
    | applied op sign spelled => cases spelled <;> cases shape
    | plain shape' => cases shape' <;> cases shape
    | _ => cases shape
  | _, .applied op sign spelled operand, q, rest, rest', h, h', e => by
    cases q with
    | applied op' sign' spelled' operand' =>
      injection e with same tail
      subst same
      obtain rfl := spelled.op_eq spelled'
      obtain ⟨rfl, rfl⟩ := operand.unique operand' h h' tail
      exact ⟨rfl, rfl⟩
    | plain shape operand' =>
      -- The other phrase would begin with the prefix operator, below the level of the operator.
      obtain ⟨t, tail, head, begins⟩ := operand'.exists_head
      rw [Phrase.tokens, Phrase.tokens, head] at e
      injection e with same
      rw [← same, spelled.not_begins shape] at begins
      cases begins
    | chain shape => cases spelled <;> cases shape
    | _ => cases spelled
  | _, .plain shape operand, q, rest, rest', h, h', e => by
    cases q with
    | plain shape' operand' =>
      obtain rfl := shape.inner_eq shape'
      have le := Nat.le_of_lt shape.rank_lt
      obtain ⟨rfl, rfl⟩ := operand.unique operand' (h.mono le) (h'.mono le) e
      exact ⟨rfl, rfl⟩
    | applied op sign spelled operand' =>
      obtain ⟨t, tail, head, begins⟩ := operand.exists_head
      rw [Phrase.tokens, Phrase.tokens, head] at e
      injection e with same
      rw [same, spelled.not_begins shape] at begins
      cases begins
    | chain shape' => cases shape' <;> cases shape
    | _ => cases shape
  | _, .single only, q, rest, rest', h, h', e => by
    cases q using Phrase.comparisonCases with
    | single only' =>
      obtain ⟨rfl, rfl⟩ := only.unique only' (h.mono (by decide)) (h'.mono (by decide)) e
      exact ⟨rfl, rfl⟩
    | compared left op sign spelled right =>
      -- The left operands agree, so what follows the one comparison is the operator of the other.
      rw [Phrase.tokens, Phrase.tokens, List.append_assoc] at e
      obtain ⟨-, tail⟩ := only.unique left (h.mono (by decide)) (spelled.stops (by decide)) e
      rw [tail] at h
      exact absurd spelled (not_joins_of_stops h op)
  | _, .compared left op sign spelled right, q, rest, rest', h, h', e => by
    cases q using Phrase.comparisonCases with
    | compared left' op' sign' spelled' right' =>
      rw [Phrase.tokens, Phrase.tokens, List.append_assoc, List.append_assoc] at e
      obtain ⟨rfl, tail⟩ := left.unique left' (spelled.stops (by decide))
        (spelled'.stops (by decide)) e
      injection tail with same tail
      subst same
      obtain ⟨-, rfl⟩ := spelled.unique spelled'
      obtain ⟨rfl, rfl⟩ := right.unique right' (h.mono (by decide)) (h'.mono (by decide)) tail
      exact ⟨rfl, rfl⟩
    | single only =>
      rw [Phrase.tokens, Phrase.tokens, List.append_assoc] at e
      obtain ⟨-, tail⟩ := left.unique only (spelled.stops (by decide)) (h'.mono (by decide)) e
      rw [← tail] at h'
      exact absurd spelled (not_joins_of_stops h' op)
  | _, .number digits, q, rest, rest', _, _, e => by
    cases q using Phrase.operandCases <;> simp_all [Phrase.tokens]
  | _, .text content, q, rest, rest', _, _, e => by
    cases q using Phrase.operandCases <;> simp_all [Phrase.tokens]
  | _, .truth value, q, rest, rest', _, _, e => by
    cases q using Phrase.operandCases with
    | truth value' =>
      injection e with same tail
      cases value <;> cases value' <;> first | exact ⟨rfl, tail⟩ | simp at same
    | name first isName =>
      exact absurd e.symm (isName.head_ne_truth value)
    | call function isName =>
      exact absurd e.symm (isName.head_ne_truth value)
    | callWith function isName =>
      exact absurd e.symm (isName.head_ne_truth value)
    | number | text | group => simp [Phrase.tokens] at e
  | _, .group inner, q, rest, rest', _, _, e => by
    cases q using Phrase.operandCases with
    | group inner' =>
      injection e with _ e
      rw [List.append_eq, List.append_eq, List.append_assoc, List.append_assoc] at e
      obtain ⟨rfl, tail⟩ := inner.unique inner' (stops_rightParen _) (stops_rightParen _) e
      injection tail with _ tail
      exact ⟨rfl, tail⟩
    | _ => simp [Phrase.tokens] at e
  | _, .name first isName properties, q, rest, rest', h, h', e => by
    cases q using Phrase.operandCases with
    | name first' isName' properties' =>
      injection e with same tail
      injection same with same
      subst same
      obtain ⟨rfl, rfl⟩ := dotted_unique h h' tail
      exact ⟨rfl, rfl⟩
    | truth value =>
      exact absurd e (isName.head_ne_truth value)
    | call =>
      injection e with _ tail
      exact absurd tail (dotted_ne_leftParen h _)
    | callWith =>
      injection e with _ tail
      exact absurd tail (dotted_ne_leftParen h _)
    | number | text | group => simp [Phrase.tokens] at e
  | _, .call function isName, q, rest, rest', _, h', e => by
    cases q using Phrase.operandCases with
    | call function' isName' =>
      injection e with same tail
      injection same with same
      subst same
      injection tail with _ tail
      injection tail with _ tail
      exact ⟨rfl, tail⟩
    | callWith function' isName' arguments =>
      injection e with _ tail
      injection tail with _ tail
      rw [List.append_eq, List.append_eq, List.append_assoc] at tail
      exact absurd tail.symm (arguments.ne_rightParen _ _)
    | name =>
      injection e with _ tail
      exact absurd tail.symm (dotted_ne_leftParen h' _)
    | truth value =>
      exact absurd e (isName.head_ne_truth value)
    | number | text | group => simp [Phrase.tokens] at e
  | _, .callWith function isName arguments, q, rest, rest', _, h', e => by
    cases q using Phrase.operandCases with
    | callWith function' isName' arguments' =>
      injection e with same tail
      injection same with same
      subst same
      injection tail with _ tail
      rw [List.append_eq, List.append_eq, List.append_assoc, List.append_assoc] at tail
      obtain ⟨rfl, rfl⟩ := arguments.unique arguments' tail
      exact ⟨rfl, rfl⟩
    | call =>
      injection e with _ tail
      injection tail with _ tail
      rw [List.append_eq, List.append_eq, List.append_assoc] at tail
      exact absurd tail (arguments.ne_rightParen _ _)
    | name =>
      injection e with _ tail
      exact absurd tail.symm (dotted_ne_leftParen h' _)
    | truth value =>
      exact absurd e (isName.head_ne_truth value)
    | number | text | group => simp [Phrase.tokens] at e

theorem Links.unique : {level inner : Level} → (links links' : Links level inner) →
    {rest rest' : List Token} → inner.rank < level.rank → Stops level rest → Stops level rest' →
      links.tokens ++ rest = links'.tokens ++ rest' → links = links' ∧ rest = rest'
  | _, _, .done, links', rest, rest', _, h, h', e => by
    cases links' with
    | done => exact ⟨rfl, e⟩
    | link op sign spelled operand more =>
      -- A chain ends only where no operator of its level follows.
      rw [Links.tokens, List.nil_append] at e
      rw [e] at h
      exact absurd spelled (not_joins_of_stops h op)
  | _, _, .link op sign spelled operand more, links', rest, rest', lt, h, h', e => by
    cases links' with
    | done =>
      rw [Links.tokens, Links.tokens, List.nil_append] at e
      rw [← e] at h'
      exact absurd spelled (not_joins_of_stops h' op)
    | link op' sign' spelled' operand' more' =>
      injection e with same e
      subst same
      obtain ⟨-, rfl⟩ := spelled.unique spelled'
      rw [List.append_eq, List.append_eq, List.append_assoc, List.append_assoc] at e
      obtain ⟨rfl, tail⟩ := operand.unique operand' (more.stops lt h) (more'.stops lt h') e
      obtain ⟨rfl, rfl⟩ := more.unique more' lt h h' tail
      exact ⟨rfl, rfl⟩

theorem Arguments.unique : (arguments arguments' : Arguments) → {rest rest' : List Token} →
    arguments.tokens ++ .rightParen :: rest = arguments'.tokens ++ .rightParen :: rest' →
      arguments = arguments' ∧ rest = rest'
  | .last argument, arguments', rest, rest', e => by
    cases arguments' with
    | last argument' =>
      obtain ⟨rfl, tail⟩ := argument.unique argument' (stops_rightParen _) (stops_rightParen _) e
      injection tail with _ tail
      exact ⟨rfl, tail⟩
    | cons argument' more' =>
      rw [Arguments.tokens, Arguments.tokens, List.append_assoc] at e
      obtain ⟨-, tail⟩ := argument.unique argument' (stops_rightParen _) (stops_comma _) e
      cases tail
  | .cons argument more, arguments', rest, rest', e => by
    cases arguments' with
    | last argument' =>
      rw [Arguments.tokens, Arguments.tokens, List.append_assoc] at e
      obtain ⟨-, tail⟩ := argument.unique argument' (stops_comma _) (stops_rightParen _) e
      cases tail
    | cons argument' more' =>
      rw [Arguments.tokens, Arguments.tokens, List.append_assoc, List.append_assoc] at e
      obtain ⟨rfl, tail⟩ := argument.unique argument' (stops_comma _) (stops_comma _) e
      injection tail with _ tail
      obtain ⟨rfl, rfl⟩ := more.unique more' tail
      exact ⟨rfl, rfl⟩

end

/-- No two phrases of a level spell the same tokens. -/
theorem Phrase.eq_of_tokens_eq {level : Level} {p q : Phrase level} (h : p.tokens = q.tokens) :
    p = q := by
  have together : p.tokens ++ [] = q.tokens ++ [] := by rw [h]
  exact (p.unique q (stops_nil level) (stops_nil level) together).1

end FormRules
