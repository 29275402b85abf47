import FormRules.Proofs.Expr.Limits
import FormRules.Proofs.Expr.Spelling
import FormRules.Proofs.Expr.Unambiguous

/-!
# Every phrase is read

Before the tokens of a phrase, and something after them that does not go on with it, a parsing
function takes exactly these tokens if the phrase keeps the limits on nesting and on height. If it
does not, the answer is that one of them has been exceeded.
-/

namespace FormRules

open Grammar

namespace Parsed

variable {bound depth nesting nesting' height height' : Nat} {α : Type} {size : α → Nat}
  {rest : List Token}

/-- Within the limits, the answer stands before certain tokens at the depth at which it began, and
its size is the height of what has been taken. Otherwise a limit has been exceeded. -/
def Ends (size : α → Nat) (rest : List Token) (depth nesting height : Nat) :
    Parsed bound α → Prop
  | .ok value s _ =>
    s.tokens = rest ∧ s.depth = depth ∧ size value = height ∧ Fits depth nesting height
  | .error fault _ => fault.cause.isLimit = true ∧ ¬Fits depth nesting height

/-- What exceeds a limit does so as a part of anything else. -/
theorem Ends.refused {β : Type} {size' : β → Nat} {rest' : List Token} {bound' : Nat}
    {fault : SyntaxError} {s s' : Cursor}
    (h : (.error fault s : Parsed bound α).Ends size rest depth nesting height)
    (nests : nesting ≤ nesting') (rises : height ≤ height') :
    (.error fault s' : Parsed bound' β).Ends size' rest' depth nesting' height' :=
  ⟨h.1, fun fits ↦ h.2 (fits.mono nests rises)⟩

theorem Ends.leave {answer : Parsed bound α}
    (h : answer.Ends size rest (depth + 1) nesting height) :
    answer.leave.Ends size rest depth (nesting + 1) height := by
  cases answer with
  | ok value s moved =>
    obtain ⟨taken, same, size_eq, fits⟩ := h
    exact ⟨taken, Nat.sub_eq_of_eq_add same, size_eq, fits_succ_iff.mp fits⟩
  | error fault s => exact ⟨h.1, fun fits ↦ h.2 (fits_succ_iff.mpr fits)⟩

theorem Ends.widen {wider : Nat} {answer : Parsed bound α}
    (h : answer.Ends size rest depth nesting height) (le : bound ≤ wider) :
    (answer.widen le).Ends size rest depth nesting height := by
  cases answer with
  | ok value s moved => exact h
  | error fault s => exact h

/-- What comes after something that nests no deeper than the limit. -/
theorem Ends.after {answer : Parsed bound α} (h : answer.Ends size rest depth nesting' height)
    (room : depth + nesting ≤ maxNesting) :
    answer.Ends size rest depth (max nesting nesting') height := by
  cases answer with
  | ok value s moved =>
    obtain ⟨taken, same, size_eq, fits⟩ := h
    exact ⟨taken, same, size_eq, fits_max_iff.mpr ⟨room, fits⟩⟩
  | error fault s => exact h.refused (Nat.le_max_right _ _) (Nat.le_refl _)

end Parsed

namespace Expr

theorem ends_grow {bound depth nesting height : Nat} {e : Expr} {s : Cursor}
    {moved : s.left < bound} {rest : List Token} (taken : s.tokens = rest)
    (same : s.depth = depth) (room : depth + nesting ≤ maxNesting) :
    (grow e height s moved).Ends Sized.height rest depth nesting height := by
  unfold grow
  split
  · next low => exact ⟨taken, same, rfl, room, low⟩
  · next high => exact ⟨rfl, fun fits ↦ high fits.2⟩

theorem ends_closing {bound depth nesting height : Nat} {α : Type} {size : α → Nat}
    {opening : Nat} {value : α} {s : Cursor} {moved : s.left < bound} {rest : List Token}
    (h : (.ok value s moved : Parsed bound α).Ends size (.rightParen :: rest) depth nesting
      height) :
    (closing opening value s moved).Ends size rest depth nesting height := by
  obtain ⟨taken, same⟩ := h
  obtain ⟨offset, tail, hs, rfl⟩ := Cursor.exists_rest taken
  unfold closing
  split
  · rename_i hs'
    rw [hs] at hs'
    cases hs'
  · rename_i t tail' hs'
    rw [hs] at hs'
    cases hs'
    rw [if_pos rfl]
    exact ⟨rfl, same⟩

/-- Where nothing may nest any more, nothing that nests fits. -/
theorem ends_deep {bound depth nesting height offset : Nat} {α : Type} {size : α → Nat}
    {s : Cursor} {rest : List Token} (deep : ¬depth < maxNesting) :
    (.error ⟨.nestedTooDeeply, offset⟩ s : Parsed bound α).Ends size rest depth (nesting + 1)
      height := by
  refine ⟨rfl, fun fits ↦ deep ?_⟩
  exact Nat.lt_of_lt_of_le (Nat.lt_add_of_pos_right (Nat.succ_pos nesting)) fits.1

theorem ends_leaf {bound depth : Nat} {e : Expr} {s : Cursor} {moved : s.left < bound}
    {rest : List Token} (taken : s.tokens = rest) (same : s.depth = depth)
    (room : depth ≤ maxNesting) :
    (.ok (.leaf e) s moved : Parsed bound Sized).Ends Sized.height rest depth 0 1 :=
  ⟨taken, same, rfl, room, by decide⟩

theorem ends_parseVariable {bound depth : Nat} {word : String} {offset : Nat} {s : Cursor}
    {moved : s.left < bound} {properties : List String} {rest : List Token}
    (h : s.tokens = dotted properties ++ rest) (same : s.depth = depth)
    (room : depth ≤ maxNesting) (stops : Stops .operand rest) :
    (parseVariable word offset s moved).Ends Sized.height rest depth 0 1 := by
  obtain ⟨path, after, found, tokens_eq⟩ := dottedName_complete word h fun t ht e ↦
    stops t ht (.inl e)
  unfold parseVariable
  split
  · rename_i found'
    rw [found] at found'
    cases found'
  · rename_i path' after' found'
    rw [found] at found'
    cases found'
    have open_stops : (s.goto after).peek ≠ some .leftParen := by
      rw [Cursor.peek_eq_head?, Cursor.tokens_goto, tokens_eq]
      exact fun e ↦ stops .leftParen e (.inr (.inl rfl))
    dsimp only
    rw [if_neg open_stops]
    exact ends_leaf tokens_eq same room

/-- What ends a comparison is not another comparison operator. -/
theorem not_chained {s : Cursor} {rest : List Token} (stops : Stops .comparison rest)
    (h : s.tokens = rest) : ¬(s.peek.bind Level.comparison.binary?).isSome = true := by
  intro some
  obtain ⟨op, found⟩ := Option.isSome_iff_exists.mp some
  obtain ⟨t, peeked, spelled⟩ := Option.bind_eq_some_iff.mp found
  rw [Cursor.peek_eq_head?, h] at peeked
  exact stops t peeked (.inr (.inr ⟨.comparison, op, Nat.le_refl _, joins_iff.mpr spelled⟩))

theorem peek_ne_rightParen {arguments : Arguments} {s : Cursor} {rest : List Token}
    (h : s.tokens = arguments.tokens ++ rest) : s.peek ≠ some .rightParen := by
  intro peeked
  rw [Cursor.peek_eq_head?, h] at peeked
  obtain ⟨tail, e⟩ := List.head?_eq_some_iff.mp peeked
  exact arguments.ne_rightParen rest tail e

theorem not_truth {w : String} (isName : IsName w) : ¬(w = "true" || w = "false") = true := by
  obtain ⟨-, -, -, htrue, hfalse⟩ := isName
  simp [htrue, hfalse]

/-! ## The productions -/

variable {level inner : Level} {s : Cursor} {rest : List Token}
  {depth nesting nesting' height height' : Nat}

theorem ends_applied {op : UnaryOp} {sign : Token} {offset : Nat} {tail : List PlacedToken}
    (spelled : Applies level op sign) (hs : s.rest = ⟨sign, offset⟩ :: tail)
    (same : s.depth = depth)
    (operand_ends : depth < maxNesting →
      (parseAt level (s.goto tail).enter).Ends Sized.height rest (depth + 1) nesting height) :
    (parseAt level s).Ends Sized.height rest depth (nesting + 1) (height + 1) := by
  rw [parseAt]
  split
  · rename_i form
    cases spelled <;> cases form
  · split
    · rename_i hs'
      cases hs.symm.trans hs'
    · rename_i hs'
      cases hs.symm.trans hs'
      split
      · rename_i unspelled
        cases (applies_iff.mp spelled).symm.trans unspelled
      · dsimp only
        split
        · rename_i shallow
          rw [Cursor.depth_goto, same] at shallow
          have outside := (operand_ends shallow).leave
          split
          · rename_i answer
            rw [answer] at outside
            exact outside.refused (Nat.le_refl _) (Nat.le_succ _)
          · rename_i answer
            rw [answer] at outside
            obtain ⟨taken, same, rfl, fits⟩ := outside
            exact ends_grow taken same fits.1
        · rename_i deep
          rw [Cursor.depth_goto, same] at deep
          exact ends_deep deep
  · rename_i form
    cases spelled <;> cases form
  · rename_i form
    cases spelled <;> cases form

theorem ends_plain (shape : Prefixed level inner)
    (unsigned : ∀ t ∈ s.tokens.head?, begins inner t = true)
    (operand_ends : (parseAt inner s).Ends Sized.height rest depth nesting height) :
    (parseAt level s).Ends Sized.height rest depth nesting height := by
  rw [parseAt]
  split
  · rename_i form
    cases shape.form.symm.trans form
  · rw [shape.tighter]
    split
    · exact operand_ends
    · rename_i t tail hs
      split
      · exact operand_ends
      · rename_i op spelled
        have begun : begins inner t.token = true :=
          unsigned t.token (by rw [Cursor.tokens_of_rest hs, List.head?_cons, Option.mem_some])
        rw [(applies_iff.mpr spelled).not_begins shape] at begun
        cases begun
  · rename_i form
    cases shape.form.symm.trans form
  · rename_i form
    cases shape.form.symm.trans form

theorem ends_single (stops : Stops .comparison rest)
    (only_ends : (parseAt .sum s).Ends Sized.height rest depth nesting height) :
    (parseAt .comparison s).Ends Sized.height rest depth nesting height := by
  rw [parseAt]
  dsimp only [Level.form, Level.tighter]
  split
  · rename_i answer
    rw [answer] at only_ends
    exact only_ends
  · rename_i left s₁ moved answer
    rw [answer] at only_ends
    split
    · exact only_ends
    · rename_i t tail hs
      have taken : s₁.tokens = rest := only_ends.1
      rw [← taken, Cursor.tokens_of_rest hs] at stops
      split
      · exact only_ends
      · rename_i op spelled
        exact absurd (joins_iff.mpr spelled) (not_joins_of_stops stops op)

theorem ends_compared {op : BinaryOp} {sign : Token} {tail : List Token}
    (spelled : Joins .comparison op sign) (stops : Stops .comparison rest)
    (left_ends : (parseAt .sum s).Ends Sized.height (sign :: tail) depth nesting height)
    (right_ends : ∀ s₁ : Cursor, s₁.tokens = tail → s₁.depth = depth →
      (parseAt .sum s₁).Ends Sized.height rest depth nesting' height') :
    (parseAt .comparison s).Ends Sized.height rest depth (max nesting nesting')
      (max height height' + 1) := by
  rw [parseAt]
  dsimp only [Level.form, Level.tighter]
  split
  · rename_i answer
    rw [answer] at left_ends
    exact left_ends.refused (Nat.le_max_left _ _) (Nat.le_succ_of_le (Nat.le_max_left _ _))
  · rename_i left s₁ moved answer
    rw [answer] at left_ends
    obtain ⟨taken, same, rfl, fits⟩ := left_ends
    obtain ⟨offset, after, hs, after_eq⟩ := Cursor.exists_rest taken
    have right_ends := right_ends (s₁.goto after) after_eq same
    split
    · rename_i hs'
      cases hs.symm.trans hs'
    · rename_i hs'
      cases hs.symm.trans hs'
      split
      · rename_i unspelled
        cases (joins_iff.mp spelled).symm.trans unspelled
      · split
        · rename_i answer₂
          rw [answer₂] at right_ends
          exact right_ends.refused (Nat.le_max_right _ _)
            (Nat.le_succ_of_le (Nat.le_max_right _ _))
        · rename_i right s₂ moved₂ answer₂
          rw [answer₂] at right_ends
          obtain ⟨taken₂, same₂, rfl, fits₂⟩ := right_ends
          rw [if_neg (not_chained stops taken₂)]
          exact (ends_grow taken₂ same₂ fits₂.1).after fits.1

theorem ends_literal {t : Token} (h : s.tokens = t :: rest) (same : s.depth = depth)
    (room : depth ≤ maxNesting)
    (literal : (∃ digits, t = .number digits) ∨ (∃ content, t = .text content) ∨
      ∃ value, t = .word (if value = true then "true" else "false")) :
    (parseOperand s).Ends Sized.height rest depth 0 1 := by
  obtain ⟨offset, tail, hs, tail_eq⟩ := Cursor.exists_rest h
  rw [parseOperand]
  split
  · rename_i hs'
    cases hs.symm.trans hs'
  · rename_i hs'
    cases hs.symm.trans hs'
    rcases literal with ⟨digits, rfl⟩ | ⟨content, rfl⟩ | ⟨value, rfl⟩
    · exact ends_leaf tail_eq same room
    · exact ends_leaf tail_eq same room
    · dsimp only
      rw [if_pos (by cases value <;> rfl)]
      exact ends_leaf tail_eq same room

theorem ends_group {offset : Nat} {tail : List PlacedToken}
    (hs : s.rest = ⟨.leftParen, offset⟩ :: tail) (same : s.depth = depth)
    (inner_ends : depth < maxNesting → (parseAt .or (s.goto tail).enter).Ends Sized.height
      (.rightParen :: rest) (depth + 1) nesting height) :
    (parseOperand s).Ends Sized.height rest depth (nesting + 1) height := by
  rw [parseOperand]
  split
  · rename_i hs'
    cases hs.symm.trans hs'
  · rename_i hs'
    cases hs.symm.trans hs'
    dsimp only
    split
    · rename_i shallow
      rw [Cursor.depth_goto, same] at shallow
      have outside := (inner_ends shallow).leave
      split
      · rename_i answer
        rw [answer] at outside
        exact outside.refused (Nat.le_refl _) (Nat.le_refl _)
      · rename_i answer
        rw [answer] at outside
        exact ends_closing outside
    · rename_i deep
      rw [Cursor.depth_goto, same] at deep
      exact ends_deep deep

theorem ends_name {w : String} {properties : List String} (isName : IsName w)
    (stops : Stops .operand rest) (h : s.tokens = .word w :: (dotted properties ++ rest))
    (same : s.depth = depth) (room : depth ≤ maxNesting) :
    (parseOperand s).Ends Sized.height rest depth 0 1 := by
  obtain ⟨offset, tail, hs, tail_eq⟩ := Cursor.exists_rest h
  rw [parseOperand]
  split
  · rename_i hs'
    cases hs.symm.trans hs'
  · rename_i hs'
    cases hs.symm.trans hs'
    dsimp only
    rw [if_neg (not_truth isName), if_neg (isName_iff.mp isName)]
    split
    · exact absurd tail_eq.symm (dotted_ne_leftParen stops _)
    · exact ends_parseVariable tail_eq same room stops

theorem ends_enclosed {bound : Nat} (moved : s.left < bound) (same : s.depth = depth)
    (shallow : depth < maxNesting)
    (h : s.tokens = .rightParen :: rest ∧ nesting = 0 ∧ height = 0 ∨
      s.peek ≠ some .rightParen ∧ (parseArguments s.enter).Ends Sized.greatest
        (.rightParen :: rest) (depth + 1) nesting height) :
    (if s.peek = some .rightParen then .ok [] s.enter moved
      else (parseArguments s.enter).widen (Nat.le_of_lt moved) :
      Parsed bound (List Sized)).leave.Ends Sized.greatest (.rightParen :: rest) depth
        (nesting + 1) height := by
  rcases h with ⟨closed, rfl, rfl⟩ | ⟨unclosed, arguments_end⟩
  · rw [if_pos (by rw [Cursor.peek_eq_head?, closed, List.head?_cons])]
    exact ⟨closed, same, rfl, shallow, Nat.zero_le _⟩
  · rw [if_neg unclosed]
    exact (arguments_end.widen _).leave

theorem ends_call {w : String} {offset opening : Nat} {tail : List PlacedToken}
    (isName : IsName w)
    (hs : s.rest = ⟨.word w, offset⟩ :: ⟨.leftParen, opening⟩ :: tail) (same : s.depth = depth)
    (h : depth < maxNesting →
      (s.goto tail).tokens = .rightParen :: rest ∧ nesting = 0 ∧ height = 0 ∨
        (s.goto tail).peek ≠ some .rightParen ∧
          (parseArguments (s.goto tail).enter).Ends Sized.greatest (.rightParen :: rest)
            (depth + 1) nesting height) :
    (parseOperand s).Ends Sized.height rest depth (nesting + 1) (height + 1) := by
  rw [parseOperand]
  split
  · rename_i hs'
    cases hs.symm.trans hs'
  · rename_i hs'
    cases hs.symm.trans hs'
    dsimp only
    rw [if_neg (not_truth isName), if_neg (isName_iff.mp isName)]
    split
    · rename_i shallow
      rw [Cursor.depth_goto, same] at shallow
      have enclosed := ends_enclosed (Nat.lt_of_succ_lt (Cursor.left_goto_lt hs))
        (by rw [Cursor.depth_goto, same]) shallow (h shallow)
      split
      · rename_i answer
        rw [answer] at enclosed
        exact enclosed.refused (Nat.le_refl _) (Nat.le_succ _)
      · rename_i arguments s₂ moved₂ answer
        rw [answer] at enclosed
        have closed : (closing opening arguments s₂ moved₂).Ends Sized.greatest rest depth
            (nesting + 1) height := ends_closing enclosed
        split
        · rename_i answer₃
          rw [answer₃] at closed
          exact closed.refused (Nat.le_refl _) (Nat.le_succ _)
        · rename_i answer₃
          rw [answer₃] at closed
          obtain ⟨taken, same₃, rfl, fits⟩ := closed
          exact ends_grow taken same₃ fits.1
    · rename_i deep
      rw [Cursor.depth_goto, same] at deep
      exact ends_deep deep

/-! ## Phrases, chains and arguments -/

mutual

theorem ends_parseAt : {level : Level} → (p : Phrase level) → {s : Cursor} → {rest : List Token} →
    {depth : Nat} → Stops level rest → s.tokens = p.tokens ++ rest → s.depth = depth →
    depth ≤ maxNesting → (parseAt level s).Ends Sized.height rest depth p.nesting p.tree.height
  | level, .chain shape first more, s, rest, depth, stops, h, same, room => by
    rw [Phrase.tokens, List.append_assoc] at h
    have first_ends := ends_parseAt first (more.stops shape.rank_lt stops) h same room
    rw [parseAt]
    split
    · rw [shape.tighter]
      split
      · rename_i answer
        rw [answer] at first_ends
        exact first_ends.refused (Nat.le_max_left _ _) (more.height_le _)
      · rename_i node s₁ moved answer
        rw [answer] at first_ends
        obtain ⟨taken, same, size_eq, fits⟩ := first_ends
        exact (ends_parseChain more shape stops taken same size_eq room fits.2).after fits.1
    · rename_i form
      cases shape.form.symm.trans form
    · rename_i form
      cases shape.form.symm.trans form
    · rename_i form
      cases shape.form.symm.trans form
  | level, .applied op sign spelled operand, s, rest, depth, stops, h, same, room => by
    obtain ⟨offset, tail, hs, tail_eq⟩ := Cursor.exists_rest h
    refine ends_applied spelled hs same fun shallow ↦ ?_
    exact ends_parseAt operand stops tail_eq (congrArg (· + 1) same) shallow
  | level, .plain shape operand, s, rest, depth, stops, h, same, room => by
    -- The operand does not begin with an operator that the parser would take first.
    have looser := stops.mono (Nat.le_of_lt shape.rank_lt)
    refine ends_plain shape ?_ (ends_parseAt operand looser h same room)
    obtain ⟨t, tail, head, begun⟩ := operand.exists_head
    rw [h, Phrase.tokens, head]
    rintro _ ⟨⟩
    exact begun
  | _, .single only, s, rest, depth, stops, h, same, room => by
    exact ends_single stops (ends_parseAt only (stops.mono (by decide)) h same room)
  | _, .compared left op sign spelled right, s, rest, depth, stops, h, same, room => by
    rw [Phrase.tokens, List.append_assoc] at h
    have left_ends := ends_parseAt left (spelled.stops (by decide)) h same room
    refine ends_compared spelled stops left_ends ?_
    intro s₁ h₁ same₁
    exact ends_parseAt right (stops.mono (by decide)) h₁ same₁ room
  | _, .number digits, s, rest, depth, stops, h, same, room => by
    rw [parseAt]
    exact ends_literal h same room (.inl ⟨digits, rfl⟩)
  | _, .text content, s, rest, depth, stops, h, same, room => by
    rw [parseAt]
    exact ends_literal h same room (.inr (.inl ⟨content, rfl⟩))
  | _, .truth value, s, rest, depth, stops, h, same, room => by
    rw [parseAt]
    exact ends_literal h same room (.inr (.inr ⟨value, rfl⟩))
  | _, .group inner, s, rest, depth, stops, h, same, room => by
    rw [Phrase.tokens, List.cons_append, List.append_assoc] at h
    obtain ⟨offset, tail, hs, tail_eq⟩ := Cursor.exists_rest h
    rw [parseAt]
    refine ends_group hs same fun shallow ↦ ?_
    exact ends_parseAt inner (stops_rightParen .or) tail_eq (congrArg (· + 1) same) shallow
  | _, .name first isName properties, s, rest, depth, stops, h, same, room => by
    rw [parseAt]
    exact ends_name isName stops h same room
  | _, .call function isName, s, rest, depth, stops, h, same, room => by
    obtain ⟨offset, after, hs, after_eq⟩ := Cursor.exists_rest h
    obtain ⟨opening, tail, rfl, close⟩ := Cursor.exists_rest after_eq
    rw [parseAt]
    exact ends_call isName hs same fun _ ↦ .inl ⟨close, rfl, rfl⟩
  | _, .callWith function isName arguments, s, rest, depth, stops, h, same, room => by
    rw [Phrase.tokens, List.cons_append, List.cons_append, List.append_assoc] at h
    obtain ⟨offset, after, hs, after_eq⟩ := Cursor.exists_rest h
    obtain ⟨opening, tail, rfl, tail_eq⟩ := Cursor.exists_rest after_eq
    rw [parseAt]
    refine ends_call isName hs same fun shallow ↦ .inr ⟨peek_ne_rightParen tail_eq, ?_⟩
    exact ends_parseArguments arguments tail_eq (congrArg (· + 1) same) shallow

theorem ends_parseChain : {level inner : Level} → (links : Links level inner) →
    Chained level inner → {bound : Nat} → {node : Sized} → {s : Cursor} → {moved : s.left < bound} →
    {rest : List Token} → {depth : Nat} → {left : Expr} → Stops level rest →
    s.tokens = links.tokens ++ rest → s.depth = depth → node.height = left.height →
    depth ≤ maxNesting → left.height ≤ maxHeight →
      (parseChain level node s moved).Ends Sized.height rest depth links.nesting
        (links.tree left).height
  | level, inner, .done, shape, bound, node, s, moved, rest, depth, left, stops, h, same, size_eq,
      room, low => by
    have taken : s.tokens = rest := h
    rw [parseChain]
    split
    · exact ⟨taken, same, size_eq, room, low⟩
    · rename_i t tail hs
      rw [← taken, Cursor.tokens_of_rest hs] at stops
      split
      · exact ⟨taken, same, size_eq, room, low⟩
      · rename_i op spelled
        exact absurd (joins_iff.mpr spelled) (not_joins_of_stops stops op)
  | level, inner, .link op sign spelled operand more, shape, bound, node, s, moved, rest, depth,
      left, stops, h, same, size_eq, room, low => by
    rw [Links.tokens, List.cons_append, List.append_assoc] at h
    obtain ⟨offset, tail, hs, tail_eq⟩ := Cursor.exists_rest h
    have operand_ends := ends_parseAt operand (more.stops shape.rank_lt stops) tail_eq same room
    -- The chain is as high as the node that this link makes, and that is higher than its operand.
    have rises := more.height_le (.binary op left operand.tree 0)
    rw [parseChain, shape.tighter]
    split
    · rename_i hs'
      cases hs.symm.trans hs'
    · rename_i hs'
      cases hs.symm.trans hs'
      split
      · rename_i unspelled
        cases (joins_iff.mp spelled).symm.trans unspelled
      · rename_i op' spelled'
        split
        · rename_i answer
          rw [answer] at operand_ends
          refine operand_ends.refused (Nat.le_max_left _ _) (Nat.le_trans ?_ rises)
          exact Nat.le_succ_of_le (Nat.le_max_right _ _)
        · rename_i second s₁ moved₁ answer
          rw [answer] at operand_ends
          obtain ⟨taken, same₁, second_eq, fits⟩ := operand_ends
          have grown : (grow (.binary op' node.expr second.expr offset)
              (max left.height operand.tree.height + 1) s₁ moved₁).Ends Sized.height
                (more.tokens ++ rest) depth operand.nesting
                (Expr.binary op left operand.tree 0).height := ends_grow taken same₁ fits.1
          rw [← size_eq, ← second_eq] at grown
          split
          · rename_i answer₂
            rw [answer₂] at grown
            exact grown.refused (Nat.le_max_left _ _) rises
          · rename_i answer₂
            rw [answer₂] at grown
            obtain ⟨taken₂, same₂, both_eq, fits₂⟩ := grown
            exact (ends_parseChain more shape stops taken₂ same₂ both_eq room fits₂.2).after fits.1

theorem ends_parseArguments : (arguments : Arguments) → {s : Cursor} → {rest : List Token} →
    {depth : Nat} → s.tokens = arguments.tokens ++ .rightParen :: rest → s.depth = depth →
    depth ≤ maxNesting → (parseArguments s).Ends Sized.greatest (.rightParen :: rest) depth
      arguments.nesting (heightAll arguments.trees)
  | .last argument, s, rest, depth, h, same, room => by
    have argument_ends := ends_parseAt argument (stops_rightParen .or) h same room
    rw [parseArguments, Arguments.trees, heightAll, heightAll, Nat.max_zero]
    split
    · rename_i answer
      rw [answer] at argument_ends
      exact argument_ends
    · rename_i node s₁ moved answer
      rw [answer] at argument_ends
      obtain ⟨taken, same₁, size_eq, fits⟩ := argument_ends
      obtain ⟨offset, tail, hs, tail_eq⟩ := Cursor.exists_rest taken
      split
      · rename_i hs'
        cases hs.symm.trans hs'
      · refine ⟨taken, same₁, ?_, fits⟩
        rw [Sized.greatest, Sized.greatest, Nat.max_zero, size_eq]
  | .cons argument more, s, rest, depth, h, same, room => by
    rw [Arguments.tokens, List.append_assoc] at h
    have argument_ends := ends_parseAt argument (stops_comma .or) h same room
    rw [parseArguments, Arguments.trees, heightAll]
    split
    · rename_i answer
      rw [answer] at argument_ends
      exact argument_ends.refused (Nat.le_max_left _ _) (Nat.le_max_left _ _)
    · rename_i node s₁ moved answer
      rw [answer] at argument_ends
      obtain ⟨taken, same₁, size_eq, fits⟩ := argument_ends
      obtain ⟨offset, tail, hs, tail_eq⟩ := Cursor.exists_rest taken
      have more_ends := ends_parseArguments more tail_eq same₁ room
      split
      · rename_i hs'
        cases hs.symm.trans hs'
        dsimp only
        rw [if_neg (peek_ne_rightParen tail_eq)]
        split
        · rename_i answer₃
          rw [answer₃] at more_ends
          exact more_ends.refused (Nat.le_max_right _ _) (Nat.le_max_right _ _)
        · rename_i answer₃
          rw [answer₃] at more_ends
          obtain ⟨taken₃, same₃, greatest_eq, fits₃⟩ := more_ends
          refine ⟨taken₃, same₃, ?_, fits_max_iff.mpr ⟨fits.1, fits₃.1, ?_⟩⟩
          · rw [Sized.greatest, size_eq, greatest_eq]
          · exact Nat.max_le.mpr ⟨fits.2, fits₃.2⟩
      · rename_i unequal
        exact absurd hs (unequal offset tail)

end

end Expr

end FormRules
