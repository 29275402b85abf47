import FormRules.Expr.Render
import FormRules.Proofs.Expr.Enclosed
import FormRules.Proofs.Expr.Lexical
import FormRules.Proofs.Token.Written

/-!
# Reading what has been rendered

A rendering is read as the expression that it shows. Every operator stands in parentheses with its
operands, so what follows an expression within a rendering is a space, a comma or a closing
parenthesis, and none of them goes on with it. Two things can fail: the parentheses may nest deeper
than the parser allows, and a text may hold a character whose escape the parser does not know.
-/

namespace FormRules

open Grammar Token

/-- A character is quoted as it is, or by an escape that stands for it in an expression. -/
def Text.ReadsBack (c : Char) : Prop := quoteChar c = [c] ∨ c ∈ ['"', '\\', '\n', '\t']

instance : DecidablePred Text.ReadsBack := fun c ↦
  inferInstanceAs (Decidable (Text.quoteChar c = [c] ∨ c ∈ ['"', '\\', '\n', '\t']))

namespace Expr

mutual

/-- The contents of the texts in an expression from left to right. -/
def texts : Expr → List String
  | .literal (.text content) _ => [content]
  | .literal _ _ | .reference _ _ => []
  | .unary _ operand _ => operand.texts
  | .binary _ left right _ => left.texts ++ right.texts
  | .call _ arguments _ => textsAll arguments

def textsAll : List Expr → List String
  | [] => []
  | e :: rest => e.texts ++ textsAll rest

end

mutual

/-- The greatest number of parentheses, argument lists and prefix operators that a rendering puts
around any place in it. Both kinds of operator stand in parentheses. -/
def nesting : Expr → Nat
  | .literal _ _ | .reference _ _ => 0
  | .unary _ operand _ => operand.nesting + 2
  | .binary _ left right _ => max left.nesting right.nesting + 1
  | .call _ arguments _ => nestingAll arguments + 1

def nestingAll : List Expr → Nat
  | [] => 0
  | e :: rest => max e.nesting (nestingAll rest)

end

mutual

/-- Whatever makes a tree higher makes its rendering nest deeper. -/
theorem height_forget_le : (e : Expr) → e.forget.height ≤ e.nesting + 1
  | .literal _ _ | .reference _ _ => Nat.le_refl 1
  | .unary _ operand _ => by
    have := height_forget_le operand
    simp only [forget, height, nesting]
    omega
  | .binary _ left right _ => by
    have := height_forget_le left
    have := height_forget_le right
    simp only [forget, height, nesting]
    omega
  | .call _ arguments _ => by
    have := heightAll_forgetAll_le arguments
    simp only [forget, height, nesting]
    omega

theorem heightAll_forgetAll_le : (list : List Expr) →
    heightAll (forgetAll list) ≤ nestingAll list + 1
  | [] => Nat.zero_le _
  | e :: rest => by
    have := height_forget_le e
    have := heightAll_forgetAll_le rest
    simp only [forgetAll, heightAll, nestingAll]
    omega

end

end Expr

/-! ## What stands in a rendering -/

namespace Token

variable {rest : List Char} {tokens : List Token}

theorem decodes_flatMap_quoteChar {cs : List Char} (h : ∀ c ∈ cs, Text.ReadsBack c) :
    Decodes '"' (cs.flatMap Text.quoteChar) cs := by
  induction cs with
  | nil => exact .done
  | cons c cs ih =>
    obtain ⟨first, further⟩ := List.forall_mem_cons.mp h
    have body := ih further
    rw [List.flatMap_cons]
    by_cases escaped : c ∈ ['"', '\\', '\n', '\t']
    · simp only [List.mem_cons, List.not_mem_nil, or_false] at escaped
      rcases escaped with rfl | rfl | rfl | rfl
      · exact .escape (.itself (.inl rfl)) body
      · exact .escape (.itself (.inr (.inr rfl))) body
      · exact .escape .newline body
      · exact .escape .tab body
    · rw [first.resolve_right escaped]
      simp only [List.mem_cons, not_or] at escaped
      exact .plain escaped.1 escaped.2.1 body

/-- What may stand after an expression in a rendering. -/
def Closes (rest : List Char) : Prop := ∀ c ∈ rest.head?, c = ' ' ∨ c = ')' ∨ c = ','

theorem closes_cons {c : Char} (h : c = ' ' ∨ c = ')' ∨ c = ',') : Closes (c :: rest) := by
  rintro _ ⟨⟩
  exact h

theorem Closes.continuesWord (h : Closes rest) : ∀ c ∈ rest.head?, continuesWord c = false := by
  intro c next
  rcases h c next with rfl | rfl | rfl <;> decide

theorem Closes.longest_number {digits : String} {cs : List Char} (h : Closes rest) :
    Longest (.number digits) cs rest := by
  constructor
  · intro c next
    rcases h c next with rfl | rfl | rfl <;> decide
  · rintro - d after rfl
    obtain e | e | e := h '.' rfl <;> cases e

theorem Reads.sign {token : Token} {c : Char} (h : Reads rest tokens)
    (spelling : signs token = [[c]]) (alone : [c] ∉ [['<'], ['>'], ['!']]) :
    Reads (c :: rest) (token :: tokens) := by
  have listed : [c] ∈ signs token := by
    rw [spelling]
    exact List.mem_singleton_self _
  have longest : Longest token [c] rest := (longest_sign_iff listed).mpr fun special ↦ by
    simp only [List.mem_cons, List.not_mem_nil, or_false] at alone
    exact absurd special alone
  exact h.cons (spells_sign Decodes listed) longest

theorem Reads.leftParen (h : Reads rest tokens) : Reads ('(' :: rest) (.leftParen :: tokens) :=
  h.sign rfl (by decide)

theorem Reads.rightParen (h : Reads rest tokens) : Reads (')' :: rest) (.rightParen :: tokens) :=
  h.sign rfl (by decide)

theorem Reads.space (h : Reads rest tokens) : Reads (' ' :: rest) tokens := h.blank rfl

theorem Reads.word {word : String} (h : Reads rest tokens) (isWord : IsWord word.toList)
    (ends : ∀ c ∈ rest.head?, continuesWord c = false) :
    Reads (word.toList ++ rest) (.word word :: tokens) :=
  h.cons ⟨rfl, isWord⟩ ends

theorem continuesWord_dotted (properties : List String)
    (h : ∀ c ∈ rest.head?, continuesWord c = false) :
    ∀ c ∈ (properties.flatMap (fun property ↦ '.' :: property.toList) ++ rest).head?,
      continuesWord c = false := by
  cases properties with
  | nil => exact h
  | cons property properties =>
    rintro _ ⟨⟩
    decide

theorem Reads.dotted {properties : List String} (h : Reads rest tokens)
    (words : ∀ property ∈ properties, IsWord property.toList)
    (ends : ∀ c ∈ rest.head?, continuesWord c = false) :
    Reads (properties.flatMap (fun property ↦ '.' :: property.toList) ++ rest)
      (dotted properties ++ tokens) := by
  induction properties with
  | nil => exact h
  | cons property properties ih =>
    obtain ⟨isWord, further⟩ := List.forall_mem_cons.mp words
    have word := (ih further).word isWord (continuesWord_dotted properties ends)
    rw [List.flatMap_cons, List.append_assoc, List.cons_append, dotted_cons]
    exact word.sign rfl (by decide)

/-- What a prefix operator is rendered with. -/
theorem exists_applies (op : UnaryOp) : ∃ level sign lead, Applies level op sign ∧
    (∀ operand offset, (Expr.unary op operand offset).render.toList =
      '(' :: (lead ++ (operand.render.toList ++ [')']))) ∧
    ∀ rest tokens, Reads rest tokens → Reads (lead ++ rest) (sign :: tokens) := by
  cases op with
  | not =>
    refine ⟨.not, .word "not", "not ".toList, .notWord, by simp [Expr.render], ?_⟩
    intro rest tokens reads
    have isWord : IsWord "not".toList := by decide
    exact reads.space.word isWord (by rintro _ ⟨⟩; decide)
  | negate =>
    refine ⟨.negation, .minus, ['-'], .minus, by simp [Expr.render], ?_⟩
    intro rest tokens reads
    exact reads.sign rfl (by decide)

/-- The keyword or sign that a binary operator is rendered with. -/
theorem exists_joins (op : BinaryOp) : ∃ level sign, Joins level op sign ∧
    Spells Decodes sign op.symbol.toList := by
  cases op with
  | or => exact ⟨.or, .word "or", .orWord, rfl, (by decide : IsWord "or".toList)⟩
  | and => exact ⟨.and, .word "and", .andWord, rfl, (by decide : IsWord "and".toList)⟩
  | equal => exact ⟨_, _, .equal, spells_sign Decodes (by decide)⟩
  | notEqual => exact ⟨_, _, .notEqual, spells_sign Decodes (by decide)⟩
  | less => exact ⟨_, _, .less, spells_sign Decodes (by decide)⟩
  | lessEqual => exact ⟨_, _, .lessEqual, spells_sign Decodes (by decide)⟩
  | greater => exact ⟨_, _, .greater, spells_sign Decodes (by decide)⟩
  | greaterEqual => exact ⟨_, _, .greaterEqual, spells_sign Decodes (by decide)⟩
  | add => exact ⟨_, _, .plus, spells_sign Decodes (by decide)⟩
  | subtract => exact ⟨_, _, .minus, spells_sign Decodes (by decide)⟩
  | multiply => exact ⟨_, _, .star, spells_sign Decodes (by decide)⟩
  | divide => exact ⟨_, _, .slash, spells_sign Decodes (by decide)⟩

end Token

namespace Expr

/-! ## Expressions that are read as they are rendered -/

/-- The rendering of an expression is read as the tokens of an operand that builds the expression,
whatever follows it in a rendering. -/
def Shown (e : Expr) : Prop :=
  ∃ p : Phrase .operand, p.tree = e.forget ∧ p.nesting = e.nesting ∧
    ∀ rest tokens, Closes rest → Reads rest tokens →
      Reads (e.render.toList ++ rest) (p.tokens ++ tokens)

variable {offset : Nat}

theorem shown_boolean (value : Bool) : Shown (.literal (.boolean value) offset) := by
  refine ⟨.truth value, rfl, rfl, fun rest tokens closes reads ↦ ?_⟩
  cases value with
  | true =>
    have isWord : IsWord "true".toList := by decide
    exact reads.word isWord closes.continuesWord
  | false =>
    have isWord : IsWord "false".toList := by decide
    exact reads.word isWord closes.continuesWord

theorem shown_number {digits : String} (isNumber : IsNumber digits.toList) :
    Shown (.literal (.number digits) offset) := by
  refine ⟨.number digits, rfl, rfl, fun rest tokens closes reads ↦ ?_⟩
  exact reads.cons ⟨rfl, isNumber⟩ closes.longest_number

theorem shown_text {content : String} (back : ∀ c ∈ content.toList, Text.ReadsBack c) :
    Shown (.literal (.text content) offset) := by
  refine ⟨.text content, rfl, rfl, fun rest tokens closes reads ↦ ?_⟩
  have rendered : (Expr.literal (.text content) offset).render.toList =
      '"' :: (content.toList.flatMap Text.quoteChar ++ ['"']) := String.toList_ofList
  rw [rendered]
  exact reads.cons ⟨'"', _, .inl rfl, decodes_flatMap_quoteChar back, rfl⟩ trivial

theorem toList_dottedName (first : String) (properties : List String) :
    (".".intercalate (first :: properties)).toList =
      first.toList ++ properties.flatMap fun property ↦ '.' :: property.toList := by
  induction properties generalizing first with
  | nil => rw [List.flatMap_nil, List.append_nil]; rfl
  | cons property properties ih =>
    have joined : ".".intercalate (first :: property :: properties) =
        ".".intercalate ((first ++ "." ++ property) :: properties) := rfl
    rw [joined, ih, String.toList_append, String.toList_append, List.flatMap_cons,
      List.append_assoc, List.append_assoc]
    rfl

theorem shown_reference {first : String} {properties : List String} (isName : IsName first)
    (isWord : IsWord first.toList) (words : ∀ property ∈ properties, IsWord property.toList) :
    Shown (.reference (".".intercalate (first :: properties)) offset) := by
  refine ⟨.name first isName properties, rfl, rfl, fun rest tokens closes reads ↦ ?_⟩
  rw [render, toList_dottedName, List.append_assoc, Phrase.tokens, List.cons_append]
  exact (reads.dotted words closes.continuesWord).word isWord
    (continuesWord_dotted properties closes.continuesWord)

theorem Shown.unary {op : UnaryOp} {operand : Expr} (h : Shown operand) :
    Shown (.unary op operand offset) := by
  obtain ⟨level, sign, lead, spelled, rendered, led⟩ := exists_applies op
  obtain ⟨p, tree_eq, nesting_eq, shown⟩ := h
  obtain ⟨q, tokens_eq, tree_eq', nesting_eq'⟩ := p.exists_applied spelled
  refine ⟨q, by rw [tree_eq', tree_eq, forget], by rw [nesting_eq', nesting_eq, nesting], ?_⟩
  intro rest tokens closes reads
  have inner := shown _ _ (closes_cons (.inr (.inl rfl))) reads.rightParen
  have opened := (led _ _ inner).leftParen
  rw [rendered, tokens_eq]
  simpa using opened

theorem Shown.binary {op : BinaryOp} {left right : Expr} (h : Shown left) (h' : Shown right) :
    Shown (.binary op left right offset) := by
  obtain ⟨level, sign, spelled, spells⟩ := exists_joins op
  obtain ⟨l, left_tree, left_nesting, left_shown⟩ := h
  obtain ⟨r, right_tree, right_nesting, right_shown⟩ := h'
  obtain ⟨q, tokens_eq, tree_eq, nesting_eq⟩ := l.exists_joined spelled r
  refine ⟨q, by rw [tree_eq, left_tree, right_tree, forget],
    by rw [nesting_eq, left_nesting, right_nesting, nesting], ?_⟩
  intro rest tokens closes reads
  -- From the end of the rendering to its beginning, since every step depends on what follows.
  have right_reads := right_shown _ _ (closes_cons (.inr (.inl rfl))) reads.rightParen
  have joined := right_reads.space.cons spells (longest_of_blank (by rintro _ ⟨⟩; rfl))
  have left_reads := left_shown _ _ (closes_cons (.inl rfl)) joined.space
  rw [tokens_eq]
  simpa [render] using left_reads.leftParen

/-- One or more expressions are read as the arguments of a call. -/
theorem exists_arguments (e : Expr) (more : List Expr) (h : ∀ a ∈ e :: more, Shown a) :
    ∃ arguments : Arguments, arguments.trees = forgetAll (e :: more) ∧
      arguments.nesting = nestingAll (e :: more) ∧
      ∀ rest tokens, Closes rest → Reads rest tokens →
        Reads ((renderAll (e :: more)).toList ++ rest) (arguments.tokens ++ tokens) := by
  induction more generalizing e with
  | nil =>
    obtain ⟨p, tree_eq, nesting_eq, shown⟩ := h e List.mem_cons_self
    obtain ⟨q, tokens_eq, tree_eq', nesting_eq'⟩ := p.exists_looser .or (Nat.zero_le _)
    refine ⟨.last q, ?_, ?_, ?_⟩
    · rw [Arguments.trees, tree_eq', tree_eq, forgetAll, forgetAll]
    · rw [Arguments.nesting, nesting_eq', nesting_eq, nestingAll, nestingAll, Nat.max_zero]
    · rw [Arguments.tokens, tokens_eq, renderAll]
      exact shown
  | cons e' more ih =>
    obtain ⟨first, further⟩ := List.forall_mem_cons.mp h
    obtain ⟨p, tree_eq, nesting_eq, shown⟩ := first
    obtain ⟨q, tokens_eq, tree_eq', nesting_eq'⟩ := p.exists_looser .or (Nat.zero_le _)
    obtain ⟨arguments, trees_eq, all_eq, all_shown⟩ := ih e' further
    refine ⟨.cons q arguments, ?_, ?_, ?_⟩
    · rw [Arguments.trees, tree_eq', tree_eq, trees_eq]
      rfl
    · rw [Arguments.nesting, nesting_eq', nesting_eq, all_eq]
      rfl
    · intro rest tokens closes reads
      have comma : Reads (',' :: _) (.comma :: _) :=
        (all_shown rest tokens closes reads).space.sign rfl (by decide)
      have first := shown _ _ (closes_cons (.inr (.inr rfl))) comma
      have listed : renderAll (e :: e' :: more) =
          e.render ++ ", " ++ renderAll (e' :: more) := rfl
      rw [Arguments.tokens, tokens_eq, listed]
      simpa using first

theorem shown_call {name : String} {arguments : List Expr} (isName : IsName name)
    (isWord : IsWord name.toList) (h : ∀ a ∈ arguments, Shown a) :
    Shown (.call name arguments offset) := by
  have ends : ∀ rest : List Char, ∀ c ∈ ('(' :: rest).head?, continuesWord c = false := by
    rintro rest _ ⟨⟩
    decide
  cases arguments with
  | nil =>
    refine ⟨.call name isName, rfl, rfl, fun rest tokens closes reads ↦ ?_⟩
    have opened := reads.rightParen.leftParen.word isWord (ends _)
    simpa [render, renderAll, Phrase.tokens] using opened
  | cons e more =>
    obtain ⟨arguments, trees_eq, nesting_eq, shown⟩ := exists_arguments e more h
    refine ⟨.callWith name isName arguments, ?_, ?_, fun rest tokens closes reads ↦ ?_⟩
    · rw [Phrase.tree, trees_eq, forget]
    · rw [Phrase.nesting, nesting_eq, nesting]
    · have inner := shown _ _ (closes_cons (.inr (.inl rfl))) reads.rightParen
      have opened := inner.leftParen.word isWord (ends _)
      simpa [render, Phrase.tokens] using opened

mutual

/-- An expression that can be spelt is read as it is rendered. -/
theorem shown_of_lexical : (e : Expr) → Lexical e →
    (∀ content ∈ e.texts, ∀ c ∈ content.toList, Text.ReadsBack c) → Shown e
  | .literal (.boolean value) _, _, _ => shown_boolean value
  | .literal (.number digits) _, h, _ => by
    cases h with
    | number isNumber => exact shown_number isNumber
  | .literal (.text content) _, _, back => shown_text (back content (List.mem_singleton_self _))
  | .reference _ _, h, _ => by
    cases h with
    | reference isName isWord words => exact shown_reference isName isWord words
  | .unary _ operand _, h, back => by
    cases h with
    | unary lexical => exact (shown_of_lexical operand lexical back).unary
  | .binary _ left right _, h, back => by
    obtain ⟨left_back, right_back⟩ := List.forall_mem_append.mp back
    cases h with
    | binary left_lexical right_lexical =>
      exact (shown_of_lexical left left_lexical left_back).binary
        (shown_of_lexical right right_lexical right_back)
  | .call _ arguments _, h, back => by
    cases h with
    | call isName isWord each =>
      exact shown_call isName isWord (shown_of_lexicalAll arguments each back)

theorem shown_of_lexicalAll : (list : List Expr) → (∀ e ∈ list, Lexical e) →
    (∀ content ∈ textsAll list, ∀ c ∈ content.toList, Text.ReadsBack c) → ∀ e ∈ list, Shown e
  | [], _, _ => fun _ member ↦ nomatch member
  | e :: rest, h, back => by
    obtain ⟨first, further⟩ := List.forall_mem_cons.mp h
    obtain ⟨first_back, further_back⟩ := List.forall_mem_append.mp back
    exact List.forall_mem_cons.mpr
      ⟨shown_of_lexical e first first_back, shown_of_lexicalAll rest further further_back⟩

end

/-- An expression is parsed from its rendering if the rendering does not nest too deep. -/
theorem Shown.exists_parse {e : Expr} (h : Shown e) (nests : e.nesting ≤ maxNesting) :
    ∃ e', parse e.render = .ok e' ∧ e'.forget = e.forget := by
  obtain ⟨p, tree_eq, nesting_eq, shown⟩ := h
  obtain ⟨q, tokens_eq, tree_eq', nesting_eq'⟩ := p.exists_looser .or (Nat.zero_le _)
  have reads := shown [] [] (fun _ none ↦ nomatch none) reads_nil
  rw [List.append_nil, List.append_nil, ← tokens_eq] at reads
  obtain ⟨list, scanned, list_eq⟩ := reads_iff.mp reads
  have nonblank : ¬e.render.toList.all Text.isBlank = true := by
    intro blank
    obtain ⟨t, tail, head, -⟩ := q.exists_head
    rw [tokens_eq_nil blank scanned, List.map_nil, head] at list_eq
    cases list_eq
  -- The height exceeds the nesting by at most one, so it stays far below its own limit.
  have fits : Fits 0 q.nesting q.tree.height := by
    have height_le := height_forget_le e
    rw [nesting_eq', nesting_eq, tree_eq', tree_eq]
    refine ⟨by rwa [Nat.zero_add], ?_⟩
    unfold maxNesting at nests
    unfold maxHeight
    omega
  rcases ofTokens_within q list_eq.symm with ⟨-, e', accepted⟩ | ⟨exceeded, -⟩
  · obtain ⟨p', same, tree_eq''⟩ := ofTokens_sound accepted
    have unique : p' = q := Phrase.eq_of_tokens_eq (same.trans list_eq)
    exact ⟨e', (parse_eq scanned nonblank).trans accepted,
      by rw [tree_eq'', unique, tree_eq', tree_eq]⟩
  · exact absurd fits exceeded

/-- What has been parsed can be rendered and parsed again, unless its rendering nests too deep or a
text in it has a character whose escape is not one of the language. -/
theorem parse_render (text : String) (e : Expr) (parsed : parse text = .ok e)
    (back : ∀ content ∈ e.texts, ∀ c ∈ content.toList, Text.ReadsBack c)
    (nests : e.nesting ≤ 64) :
    ∃ e', parse e.render = .ok e' ∧ e'.forget = e.forget ∧ e'.variableNames = e.variableNames := by
  have shown := shown_of_lexical e (lexical_of_parse parsed) back
  obtain ⟨e', accepted, same⟩ := shown.exists_parse nests
  have names : e'.names = e.names := by rw [← names_forget, same, names_forget]
  exact ⟨e', accepted, same, congrArg List.eraseDups names⟩

/-- Keywords and signs, a keyword as a property, and a text with quotes and a line break in it. -/
theorem parse_render_of_mixed_operators :
    ∃ e, parse "not a.or || f(-1.50, 'say \"é\"\\n') < 2" = .ok e ∧
      e.render = "((not a.or) or (f((-1.50), \"say \\\"é\\\"\\n\") < 2))" ∧
      ∃ e', parse e.render = .ok e' ∧ e'.forget = e.forget ∧
        e'.variableNames = e.variableNames := by
  have facts : (parse "not a.or || f(-1.50, 'say \"é\"\\n') < 2").toOption.map
      (fun e ↦ (e.texts, e.nesting, e.render)) = some (["say \"é\"\n"], 5,
        "((not a.or) or (f((-1.50), \"say \\\"é\\\"\\n\") < 2))") := by decide +kernel
  cases parsed : parse "not a.or || f(-1.50, 'say \"é\"\\n') < 2" with
  | error fault =>
    rw [parsed] at facts
    cases facts
  | ok e =>
    rw [parsed] at facts
    obtain ⟨texts_eq, further⟩ := Prod.mk.inj (Option.some.inj facts)
    obtain ⟨nesting_eq, render_eq⟩ := Prod.mk.inj further
    refine ⟨e, rfl, render_eq, parse_render _ e parsed ?_ (by rw [nesting_eq]; decide)⟩
    have each : "say \"é\"\n".toList.all Text.ReadsBack = true := by decide +kernel
    rw [texts_eq, List.forall_mem_singleton]
    exact fun c member ↦ of_decide_eq_true (List.all_eq_true.mp each c member)

end Expr

end FormRules
