import FormRules.Proofs.Expr.Rendered
import FormRules.Proofs.Text.Quoted

/-!
# What a rendering determines

A rendering begins with a quote, a parenthesis, or a character of a name or number, and goes on in a
way that its beginning decides. So no expression is rendered like another one, up to offsets, and
where its rendering ends can be seen from the rendering itself. Neither the depth of an expression
nor the characters of its texts matter for this, though both may keep it from being parsed again.
-/

namespace FormRules

open Grammar Token

/-- What a prefix operator is rendered with. -/
def UnaryOp.lead : UnaryOp → List Char
  | .not => "not ".toList
  | .negate => ['-']

namespace Expr

variable {e operand left right : Expr} {arguments : List Expr} {c : Char}
  {word cs cs' rest rest' : List Char} {offset : Nat}

/-! ## Names and numbers -/

/-- A character of a name, with its properties, or of a number. -/
def solid (c : Char) : Bool := continuesWord c || c == '.'

theorem solid_of_isDigit (digit : c.isDigit = true) : solid c = true := by
  have numeral : Text.isNumeral c = true := (if_pos (toNat_lt_of_isDigit digit)).trans digit
  simp [solid, continuesWord, numeral]

theorem solid_of_continuesWord (continues : continuesWord c = true) : solid c = true := by
  rw [solid, continues, Bool.true_or]

theorem continuesWord_of_beginsWord (begins : beginsWord c = true) : continuesWord c = true := by
  simp only [beginsWord, continuesWord, Bool.or_eq_true] at begins ⊢
  tauto

theorem ne_nil_of_isWord (isWord : IsWord cs) : cs ≠ [] := by
  rintro rfl
  cases isWord

theorem solid_of_isWord (isWord : IsWord cs) : ∀ c ∈ cs, solid c = true := by
  cases cs with
  | nil => exact fun _ member ↦ nomatch member
  | cons first more =>
    refine List.forall_mem_cons.mpr ⟨?_, fun c member ↦ ?_⟩
    · exact solid_of_continuesWord (continuesWord_of_beginsWord isWord.1)
    · exact solid_of_continuesWord (isWord.2 c member)

theorem solid_of_isNumber (isNumber : IsNumber cs) : ∀ c ∈ cs, solid c = true := by
  cases isNumber with
  | whole digits => exact fun c member ↦ solid_of_isDigit (digits.2 c member)
  | decimal digits fraction =>
    refine List.forall_mem_append.mpr ⟨fun c member ↦ solid_of_isDigit (digits.2 c member), ?_⟩
    exact List.forall_mem_cons.mpr
      ⟨rfl, fun c member ↦ solid_of_isDigit (fraction.2 c member)⟩

theorem solid_of_dotted {properties : List String}
    (words : ∀ property ∈ properties, IsWord property.toList) :
    ∀ c ∈ properties.flatMap (fun property ↦ '.' :: property.toList), solid c = true := by
  intro c member
  obtain ⟨property, listed, within⟩ := List.mem_flatMap.mp member
  rcases List.mem_cons.mp within with rfl | within
  · rfl
  · exact solid_of_isWord (words property listed) c within

theorem not_solid_of_closes (closes : Closes rest) : ∀ c ∈ rest.head?, ¬solid c = true := by
  intro c next
  rcases closes c next with rfl | rfl | rfl <;> decide

theorem not_solid_cons (unsolid : solid c = false) : ∀ d ∈ (c :: cs).head?, ¬solid d = true := by
  rintro _ ⟨⟩
  simp [unsolid]

/-- The boolean, number or name that is rendered as some characters. -/
def atom (cs : List Char) : Expr :=
  if cs = "true".toList then .literal (.boolean true) 0
  else if cs = "false".toList then .literal (.boolean false) 0
  else if cs.head?.any Char.isDigit then .literal (.number (String.ofList cs)) 0
  else .reference (String.ofList cs) 0

/-- A boolean, a number or a name, whose rendering has no parts. -/
structure Atomic (e : Expr) (cs : List Char) : Prop where
  ne_nil : cs ≠ []
  solid : ∀ c ∈ cs, solid c = true
  ne_not : cs ≠ "not".toList
  forget_eq : e.forget = atom cs

theorem atomic_boolean (value : Bool) :
    Atomic (.literal (.boolean value) offset) (Literal.boolean value).render.toList := by
  cases value with
  | true => exact ⟨by decide, solid_of_isWord (by decide), by decide, rfl⟩
  | false => exact ⟨by decide, solid_of_isWord (by decide), by decide, rfl⟩

theorem atomic_number {digits : String} (isNumber : IsNumber digits.toList) :
    Atomic (.literal (.number digits) offset) digits.toList := by
  have digit : digits.toList.head?.any Char.isDigit = true := by
    obtain ⟨first, more, spelling⟩ := List.exists_cons_of_ne_nil isNumber.ne_nil
    rw [spelling] at isNumber ⊢
    exact isNumber.head
  have lettered : ∀ w ∈ reservedWords, w.toList.head?.any Char.isDigit = false := by decide
  have differs : ∀ w ∈ reservedWords, digits.toList ≠ w.toList := by
    intro w reserved same
    have letter := lettered w reserved
    rw [← same, digit] at letter
    cases letter
  refine ⟨isNumber.ne_nil, solid_of_isNumber isNumber, differs "not" (by decide), ?_⟩
  rw [atom, if_neg (differs "true" (by decide)), if_neg (differs "false" (by decide)),
    if_pos digit, String.ofList_toList]
  rfl

/-- No keyword has a dot, so no name is rendered as one. -/
theorem dottedName_ne {first w : String} {properties : List String} (isName : IsName first)
    (reserved : w ∈ reservedWords) :
    (".".intercalate (first :: properties)).toList ≠ w.toList := by
  have undotted : ∀ w ∈ reservedWords, '.' ∉ w.toList := by decide
  replace undotted := undotted w reserved
  intro same
  rw [toList_dottedName] at same
  cases properties with
  | nil =>
    rw [List.flatMap_nil, List.append_nil] at same
    exact isName_iff.mp (String.toList_injective same ▸ isName) reserved
  | cons property properties =>
    rw [← same, List.flatMap_cons] at undotted
    simp at undotted

theorem atomic_reference {first : String} {properties : List String} (isName : IsName first)
    (isWord : IsWord first.toList) (words : ∀ property ∈ properties, IsWord property.toList) :
    Atomic (.reference (".".intercalate (first :: properties)) offset)
      (".".intercalate (first :: properties)).toList := by
  have differs : ∀ w ∈ reservedWords,
      (".".intercalate (first :: properties)).toList ≠ w.toList := fun _ ↦ dottedName_ne isName
  obtain ⟨c, more, spelling⟩ := List.exists_cons_of_ne_nil (ne_nil_of_isWord isWord)
  have begins : beginsWord c = true := (spelling ▸ isWord).1
  have head : (".".intercalate (first :: properties)).toList.head? = some c := by
    rw [toList_dottedName, spelling]
    rfl
  refine ⟨?_, ?_, differs "not" (by decide), ?_⟩
  · intro none
    rw [none] at head
    cases head
  · rw [toList_dottedName]
    exact List.forall_mem_append.mpr ⟨solid_of_isWord isWord, solid_of_dotted words⟩
  · have digit : c.isDigit = false := (beginsWord_apart begins).2.1
    rw [atom, if_neg (differs "true" (by decide)), if_neg (differs "false" (by decide)), head,
      if_neg (by simp [digit]), String.ofList_toList]
    rfl

/-! ## How a rendering begins -/

/-- The characters of a rendering, by what kind of expression it shows. -/
inductive Rendering : Expr → List Char → Prop
  | atomic {e : Expr} {cs : List Char} : Atomic e cs → Rendering e cs
  | text {content : String} {offset : Nat} :
    Rendering (.literal (.text content) offset) (Text.quoteChars content.toList)
  | unary {op : UnaryOp} {operand : Expr} {offset : Nat} :
    Rendering (.unary op operand offset) ('(' :: (op.lead ++ (operand.render.toList ++ [')'])))
  | binary {op : BinaryOp} {left right : Expr} {offset : Nat} :
    Rendering (.binary op left right offset) ('(' :: (left.render.toList ++
      ' ' :: (op.symbol.toList ++ ' ' :: (right.render.toList ++ [')']))))
  | call {name : String} {arguments : List Expr} {offset : Nat} :
    IsWord name.toList → Rendering (.call name arguments offset)
      (name.toList ++ '(' :: ((renderAll arguments).toList ++ [')']))

theorem toList_render_unary (op : UnaryOp) : (Expr.unary op operand offset).render.toList =
    '(' :: (op.lead ++ (operand.render.toList ++ [')'])) := by
  cases op <;> simp [render, UnaryOp.lead]

theorem toList_render_binary (op : BinaryOp) :
    (Expr.binary op left right offset).render.toList = '(' :: (left.render.toList ++
      ' ' :: (op.symbol.toList ++ ' ' :: (right.render.toList ++ [')']))) := by
  simp [render]

theorem toList_render_call (name : String) : (Expr.call name arguments offset).render.toList =
    name.toList ++ '(' :: ((renderAll arguments).toList ++ [')']) := by
  simp [render]

theorem rendering_of_lexical (h : Lexical e) : Rendering e e.render.toList := by
  cases h with
  | boolean => exact .atomic (atomic_boolean _)
  | number isNumber => exact .atomic (atomic_number isNumber)
  | text => exact (String.toList_ofList : (Text.quote _).toList = _) ▸ .text
  | reference isName isWord words => exact .atomic (atomic_reference isName isWord words)
  | unary => exact toList_render_unary _ ▸ .unary
  | binary => exact toList_render_binary _ ▸ .binary
  | call _ isWord each => exact toList_render_call _ ▸ .call isWord

theorem head_ne_of_solid (nonempty : cs ≠ []) (all : ∀ c ∈ cs, solid c = true)
    (unsolid : solid c = false) : cs ++ rest ≠ c :: cs' := by
  obtain ⟨first, more, rfl⟩ := List.exists_cons_of_ne_nil nonempty
  intro same
  have first_solid := all first List.mem_cons_self
  rw [(List.cons.inj same).1, unsolid] at first_solid
  cases first_solid

/-- A rendering that does not begin with a name or number begins with a quote or a parenthesis. -/
theorem of_unsolid (lexical : Lexical e) (unsolid : solid c = false)
    (same : e.render.toList ++ rest = c :: cs) :
    c = '"' ∧ (∃ content offset, e = .literal (.text content) offset) ∨
      c = '(' ∧ ((∃ op operand offset, e = .unary op operand offset) ∨
        ∃ op left right offset, e = .binary op left right offset) := by
  have rendering := rendering_of_lexical lexical
  generalize e.render.toList = shown at same rendering
  cases rendering with
  | atomic atomic => exact absurd same (head_ne_of_solid atomic.ne_nil atomic.solid unsolid)
  | text => exact .inl ⟨(List.cons.inj same).1.symm, _, _, rfl⟩
  | unary => exact .inr ⟨(List.cons.inj same).1.symm, .inl ⟨_, _, _, rfl⟩⟩
  | binary => exact .inr ⟨(List.cons.inj same).1.symm, .inr ⟨_, _, _, _, rfl⟩⟩
  | call isWord =>
    rw [List.append_assoc] at same
    exact absurd same (head_ne_of_solid (ne_nil_of_isWord isWord) (solid_of_isWord isWord) unsolid)

/-- A rendering that begins with a name or number is no more than that, or goes on with the
arguments of a call. -/
theorem of_solid (lexical : Lexical e) (nonempty : word ≠ [])
    (all : ∀ c ∈ word, solid c = true) (ends : ∀ c ∈ rest.head?, ¬solid c = true)
    (closes : Closes rest') (same : word ++ rest = e.render.toList ++ rest') :
    Atomic e word ∧ rest = rest' ∨
      ∃ name arguments offset, e = .call name arguments offset ∧ word = name.toList ∧
        rest = '(' :: ((renderAll arguments).toList ++ ')' :: rest') := by
  have rendering := rendering_of_lexical lexical
  generalize e.render.toList = shown at same rendering
  have head_ne {c : Char} {cs : List Char} (unsolid : solid c = false) : word ++ rest ≠ c :: cs :=
    head_ne_of_solid nonempty all unsolid
  cases rendering with
  | atomic atomic =>
    obtain ⟨rfl, rest_eq⟩ :=
      Text.append_inj_of_kind all atomic.solid ends (not_solid_of_closes closes) same
    exact .inl ⟨atomic, rest_eq⟩
  | text => exact absurd same (head_ne (by decide))
  | unary => exact absurd same (head_ne (by decide))
  | binary => exact absurd same (head_ne (by decide))
  | call isWord =>
    rw [List.append_assoc] at same
    obtain ⟨name_eq, rest_eq⟩ := Text.append_inj_of_kind all (solid_of_isWord isWord) ends
      (not_solid_cons (by decide)) same
    exact .inr ⟨_, _, _, rfl, name_eq, by rw [rest_eq]; simp⟩

theorem lead_append_inj {op op' : UnaryOp} (h : op.lead ++ cs = op'.lead ++ cs') :
    op = op' ∧ cs = cs' := by
  cases op <;> cases op' <;> simp [UnaryOp.lead] at h ⊢ <;> exact h

/-- After an opening parenthesis, a prefix operator is not taken for a left operand. -/
theorem lead_append_ne {op : UnaryOp} (lexical : Lexical left) :
    op.lead ++ cs ≠ left.render.toList ++ ' ' :: cs' := by
  intro same
  cases op with
  | negate =>
    obtain ⟨minus, -⟩ | ⟨minus, -⟩ := of_unsolid lexical (by decide : solid '-' = false) same.symm
    all_goals cases minus
  | not =>
    have split : "not".toList ++ ' ' :: cs = left.render.toList ++ ' ' :: cs' := same
    have isWord : IsWord "not".toList := by decide
    obtain ⟨atomic, -⟩ | ⟨_, _, _, _, _, paren⟩ := of_solid lexical (ne_nil_of_isWord isWord)
      (solid_of_isWord isWord) (not_solid_cons (by decide)) (closes_cons (.inl rfl)) split
    · exact atomic.ne_not rfl
    · cases paren

theorem symbol_injective {op op' : BinaryOp} (h : op.symbol.toList = op'.symbol.toList) :
    op = op' := by
  cases op <;> cases op' <;> first | rfl | exact absurd h (by decide)

theorem symbol_append_inj {op op' : BinaryOp}
    (h : op.symbol.toList ++ ' ' :: cs = op'.symbol.toList ++ ' ' :: cs') :
    op = op' ∧ cs = cs' := by
  have unspaced : ∀ op : BinaryOp, ∀ c ∈ op.symbol.toList, c ≠ ' ' := by
    rintro op _ member rfl
    revert member
    cases op <;> decide
  have spaced : ∀ cs : List Char, ∀ c ∈ (' ' :: cs).head?, ¬c ≠ ' ' := by
    rintro cs _ ⟨⟩
    simp
  obtain ⟨symbol_eq, rest_eq⟩ :=
    Text.append_inj_of_kind (unspaced op) (unspaced op') (spaced _) (spaced _) h
  exact ⟨symbol_injective symbol_eq, (List.cons.inj rest_eq).2⟩

/-! ## What a rendering shows -/

/-- Only an expression that is equal up to offsets is rendered like this one, also where more
follows the renderings, and then the same follows both. -/
def Determined (e : Expr) : Prop :=
  ∀ e' rest rest', Lexical e' → Closes rest → Closes rest' →
    e.render.toList ++ rest = e'.render.toList ++ rest' → e.forget = e'.forget ∧ rest = rest'

theorem determined_atomic (atomic : Atomic e e.render.toList) : Determined e := by
  intro e' rest rest' lexical closes closes' same
  obtain ⟨atomic', rest_eq⟩ | ⟨_, _, _, _, _, rfl⟩ := of_solid lexical atomic.ne_nil atomic.solid
    (not_solid_of_closes closes) closes' same
  · exact ⟨atomic.forget_eq.trans atomic'.forget_eq.symm, rest_eq⟩
  · obtain paren | paren | paren := closes '(' rfl
    all_goals cases paren

theorem determined_text (content : String) : Determined (.literal (.text content) offset) := by
  intro e' rest rest' lexical closes closes' same
  have shown (content : String) : (Text.quote content).toList = Text.quoteChars content.toList :=
    String.toList_ofList
  rw [render, Literal.render, shown] at same
  obtain ⟨-, content', offset', rfl⟩ | ⟨quote, -⟩ :=
    of_unsolid lexical (by decide : solid '"' = false) same.symm
  · rw [render, Literal.render, shown] at same
    obtain ⟨content_eq, rest_eq⟩ := Text.quoteChars_append_inj same
    rw [forget, forget, String.toList_injective content_eq]
    exact ⟨rfl, rest_eq⟩
  · cases quote

theorem Determined.unary {op : UnaryOp} (h : Determined operand) :
    Determined (.unary op operand offset) := by
  intro e' rest rest' lexical closes closes' same
  rw [toList_render_unary] at same
  obtain ⟨quote, -⟩ | ⟨-, ⟨op', operand', offset', rfl⟩ | ⟨op', left, right, offset', rfl⟩⟩ :=
    of_unsolid lexical (by decide : solid '(' = false) same.symm
  · cases quote
  · cases lexical with
    | unary lexical =>
      rw [toList_render_unary] at same
      simp only [List.cons_append, List.append_assoc, List.cons.injEq, true_and] at same
      obtain ⟨rfl, further⟩ := lead_append_inj same
      obtain ⟨operand_eq, rest_eq⟩ := h operand' _ _ lexical (closes_cons (.inr (.inl rfl)))
        (closes_cons (.inr (.inl rfl))) further
      rw [forget, forget, operand_eq]
      exact ⟨rfl, (List.cons.inj rest_eq).2⟩
  · cases lexical with
    | binary left_lexical _ =>
      rw [toList_render_binary] at same
      simp only [List.cons_append, List.append_assoc, List.cons.injEq, true_and] at same
      exact absurd same (lead_append_ne left_lexical)

theorem Determined.binary {op : BinaryOp} (lexical_left : Lexical left) (h : Determined left)
    (h' : Determined right) : Determined (.binary op left right offset) := by
  intro e' rest rest' lexical closes closes' same
  rw [toList_render_binary] at same
  obtain ⟨quote, -⟩ | ⟨-, ⟨op', operand', offset', rfl⟩ | ⟨op', left', right', offset', rfl⟩⟩ :=
    of_unsolid lexical (by decide : solid '(' = false) same.symm
  · cases quote
  · rw [toList_render_unary] at same
    simp only [List.cons_append, List.append_assoc, List.cons.injEq, true_and] at same
    exact absurd same.symm (lead_append_ne lexical_left)
  · cases lexical with
    | binary left_lexical right_lexical =>
      rw [toList_render_binary] at same
      simp only [List.cons_append, List.append_assoc, List.cons.injEq, true_and] at same
      obtain ⟨left_eq, after_left⟩ := h left' _ _ left_lexical (closes_cons (.inl rfl))
        (closes_cons (.inl rfl)) same
      obtain ⟨rfl, after_symbol⟩ := symbol_append_inj (List.cons.inj after_left).2
      obtain ⟨right_eq, rest_eq⟩ := h' right' _ _ right_lexical (closes_cons (.inr (.inl rfl)))
        (closes_cons (.inr (.inl rfl))) after_symbol
      rw [forget, forget, left_eq, right_eq]
      exact ⟨rfl, (List.cons.inj rest_eq).2⟩

/-- What follows the first argument of a call in a rendering. -/
def remaining : List Expr → List Char → List Char
  | [], rest => ')' :: rest
  | e :: more, rest => ',' :: ' ' :: ((renderAll (e :: more)).toList ++ ')' :: rest)

theorem toList_renderAll_cons (e : Expr) (more : List Expr) (rest : List Char) :
    (renderAll (e :: more)).toList ++ ')' :: rest = e.render.toList ++ remaining more rest := by
  cases more with
  | nil => rfl
  | cons e' more => simp [renderAll, remaining]

theorem closes_remaining (more : List Expr) (rest : List Char) : Closes (remaining more rest) := by
  cases more with
  | nil => exact closes_cons (.inr (.inl rfl))
  | cons e more => exact closes_cons (.inr (.inr rfl))

theorem render_ne_rightParen (lexical : Lexical e) : e.render.toList ++ rest ≠ ')' :: cs := by
  intro same
  obtain ⟨paren, -⟩ | ⟨paren, -⟩ := of_unsolid lexical (by decide : solid ')' = false) same
  all_goals cases paren

/-- Each further argument begins after a comma, and the last of them ends before a parenthesis. -/
theorem remaining_inj {more more' : List Expr} (h : ∀ a ∈ more, Determined a)
    (h' : ∀ a ∈ more', Lexical a) (same : remaining more rest = remaining more' rest') :
    forgetAll more = forgetAll more' ∧ rest = rest' := by
  induction more generalizing more' with
  | nil =>
    cases more' with
    | nil => exact ⟨rfl, (List.cons.inj same).2⟩
    | cons e' more' => cases (List.cons.inj same).1
  | cons e more ih =>
    cases more' with
    | nil => cases (List.cons.inj same).1
    | cons e' more' =>
      obtain ⟨determined, further⟩ := List.forall_mem_cons.mp h
      obtain ⟨lexical, further'⟩ := List.forall_mem_cons.mp h'
      simp only [remaining, List.cons.injEq, true_and] at same
      rw [toList_renderAll_cons, toList_renderAll_cons] at same
      obtain ⟨first_eq, after⟩ := determined e' _ _ lexical (closes_remaining more rest)
        (closes_remaining more' rest') same
      obtain ⟨more_eq, rest_eq⟩ := ih further further' after
      rw [forgetAll, forgetAll, first_eq, more_eq]
      exact ⟨rfl, rest_eq⟩

theorem determined_arguments {list list' : List Expr} (h : ∀ a ∈ list, Lexical a ∧ Determined a)
    (h' : ∀ a ∈ list', Lexical a)
    (same : (renderAll list).toList ++ ')' :: rest = (renderAll list').toList ++ ')' :: rest') :
    forgetAll list = forgetAll list' ∧ rest = rest' := by
  cases list with
  | nil =>
    cases list' with
    | nil => exact ⟨rfl, (List.cons.inj same).2⟩
    | cons e' more' =>
      rw [toList_renderAll_cons] at same
      exact absurd same.symm (render_ne_rightParen (h' e' List.mem_cons_self))
  | cons e more =>
    cases list' with
    | nil =>
      rw [toList_renderAll_cons] at same
      exact absurd same (render_ne_rightParen (h e List.mem_cons_self).1)
    | cons e' more' =>
      -- Behind a comma, both lists are the remaining arguments of a longer call.
      refine remaining_inj (fun a member ↦ (h a member).2) h' ?_
      rw [remaining, remaining, same]

theorem determined_call {name : String} (isWord : IsWord name.toList)
    (h : ∀ a ∈ arguments, Lexical a ∧ Determined a) : Determined (.call name arguments offset) := by
  intro e' rest rest' lexical closes closes' same
  rw [toList_render_call, List.append_assoc] at same
  obtain ⟨-, rest_eq⟩ | ⟨name', arguments', offset', rfl, name_eq, rest_eq⟩ := of_solid lexical
    (ne_nil_of_isWord isWord) (solid_of_isWord isWord) (not_solid_cons (by decide)) closes' same
  · obtain paren | paren | paren := closes' '(' (rest_eq ▸ rfl)
    all_goals cases paren
  · cases lexical with
    | call _ _ each =>
      have listed : (renderAll arguments).toList ++ ')' :: rest =
          (renderAll arguments').toList ++ ')' :: rest' := by simpa using rest_eq
      obtain ⟨arguments_eq, rest_eq⟩ := determined_arguments h each listed
      rw [forget, forget, String.toList_injective name_eq, arguments_eq]
      exact ⟨rfl, rest_eq⟩

/-- An expression that can be spelt is shown by its rendering. -/
theorem determined_of_lexical (h : Lexical e) : Determined e := by
  induction h with
  | boolean => exact determined_atomic (atomic_boolean _)
  | number isNumber => exact determined_atomic (atomic_number isNumber)
  | text => exact determined_text _
  | reference isName isWord words => exact determined_atomic (atomic_reference isName isWord words)
  | unary _ ih => exact ih.unary
  | binary left_lexical _ left_ih right_ih => exact left_ih.binary left_lexical right_ih
  | call _ isWord each ih =>
    exact determined_call isWord fun a member ↦ ⟨each a member, ih a member⟩

/-- Two texts whose expressions have the same rendering mean the same. -/
theorem render_injective (text text' : String) (e e' : Expr) (parsed : parse text = .ok e)
    (parsed' : parse text' = .ok e') (same : e.render = e'.render) : e.forget = e'.forget := by
  have determined := determined_of_lexical (lexical_of_parse parsed)
  have closes : Closes [] := fun _ none ↦ nomatch none
  exact (determined e' [] [] (lexical_of_parse parsed') closes closes (by rw [same])).1

/-- Keywords for signs, parentheses that change nothing, and a text that is rendered with an escape
which could not be read back. -/
theorem render_injective_of_unreadable_escape :
    ∃ e e', parse "!a.or && f(-1.50, 'it\\s\x07')" = .ok e ∧
      parse "(not a.or) and f((-1.50),\"it\\s\x07\")" = .ok e' ∧
      e.render = "((not a.or) and f((-1.50), \"it\\\\s\\u\x7b7\x7d\"))" ∧ e'.render = e.render ∧
      e.forget = e'.forget := by
  have rendered : (parse "!a.or && f(-1.50, 'it\\s\x07')").toOption.map render =
      some "((not a.or) and f((-1.50), \"it\\\\s\\u\x7b7\x7d\"))" := by decide +kernel
  have rendered' : (parse "(not a.or) and f((-1.50),\"it\\s\x07\")").toOption.map render =
      some "((not a.or) and f((-1.50), \"it\\\\s\\u\x7b7\x7d\"))" := by decide +kernel
  obtain ⟨e, parsed, render_eq⟩ := exists_of_toOption_map rendered
  obtain ⟨e', parsed', render_eq'⟩ := exists_of_toOption_map rendered'
  refine ⟨e, e', parsed, parsed', render_eq, render_eq'.trans render_eq.symm, ?_⟩
  exact render_injective _ _ e e' parsed parsed' (render_eq.trans render_eq'.symm)

end Expr

end FormRules
