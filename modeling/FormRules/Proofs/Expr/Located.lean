import FormRules.Proofs.Expr.Exact
import FormRules.Proofs.Token.Misspelling

/-!
# Where the parser stands, and where it fails

Whatever a parsing function answers, it stands at a place that follows the one at which it was
called, as deep in nesting constructs as there. An error is placed at a token that was still to be
read at the call, or at the end of the text.
-/

namespace FormRules

namespace Cursor

/-- One place follows another: some tokens have been taken, everything that was opened in between
has been left again, and nothing was opened beyond the limit. -/
structure Follows (s s' : Cursor) : Prop where
  rest : s'.rest <:+ s.rest
  stop : s'.stop = s.stop
  depth : s'.depth = s.depth
  deepest : s'.deepest ≤ max s.deepest maxNesting

/-- The offsets of the tokens that are still to be read, and that of the end of the text. -/
def places (s : Cursor) : List Nat := s.rest.map PlacedToken.offset ++ [s.stop]

variable {s s' s'' : Cursor} {t : PlacedToken} {rest : List PlacedToken} {place : Nat}

theorem Follows.refl (s : Cursor) : s.Follows s :=
  ⟨List.suffix_refl _, rfl, rfl, Nat.le_max_left _ _⟩

theorem Follows.trans (h : s.Follows s') (h' : s'.Follows s'') : s.Follows s'' where
  rest := h'.rest.trans h.rest
  stop := h'.stop.trans h.stop
  depth := h'.depth.trans h.depth
  deepest := by
    have first := h.deepest
    have second := h'.deepest
    omega

theorem follows_goto_of_suffix (h : rest <:+ s.rest) : s.Follows (s.goto rest) :=
  ⟨h, rfl, rfl, Nat.le_max_left _ _⟩

theorem follows_goto (h : s.rest = t :: rest) : s.Follows (s.goto rest) :=
  follows_goto_of_suffix (h ▸ List.suffix_cons t rest)

/-- What is entered where the limit allows it is left again. -/
theorem Follows.leave (h : s.enter.Follows s') (room : s.depth < maxNesting) :
    s.Follows s'.leave where
  rest := h.rest
  stop := h.stop
  depth := by
    rw [Cursor.leave, h.depth]
    exact Nat.add_sub_cancel s.depth 1
  deepest := by
    have inside : s'.deepest ≤ max (max s.deepest (s.depth + 1)) maxNesting := h.deepest
    change s'.deepest ≤ max s.deepest maxNesting
    omega

theorem offset_mem_places (s : Cursor) : s.offset ∈ s.places := by
  unfold offset places
  split
  · next none =>
    rw [none]
    exact List.mem_singleton_self _
  · next t rest found =>
    rw [found]
    exact List.mem_cons_self

theorem places_cons (h : s.rest = t :: rest) : t.offset ∈ s.places := by
  rw [places, h]
  exact List.mem_cons_self

theorem stop_mem_places (s : Cursor) : s.stop ∈ s.places :=
  List.mem_append_right _ (List.mem_singleton_self _)

theorem Follows.mem_places (h : s.Follows s') (member : place ∈ s'.places) : place ∈ s.places := by
  rw [places, h.stop] at member
  rcases List.mem_append.mp member with token | stop
  · exact List.mem_append_left _ ((h.rest.map PlacedToken.offset).subset token)
  · exact List.mem_append_right _ stop

end Cursor

namespace Parsed

open Cursor

variable {bound : Nat} {α : Type} {s s' : Cursor}

/-- The answer to a call at a place: a place that follows it, and if there is an error, where. -/
def Located (s : Cursor) : Parsed bound α → Prop
  | .ok _ s' _ => s.Follows s'
  | .error fault s' => s.Follows s' ∧ fault.offset ∈ s.places

theorem Located.back {answer : Parsed bound α} (h : answer.Located s') (follows : s.Follows s') :
    answer.Located s := by
  cases answer with
  | ok value s'' moved => exact follows.trans h
  | error fault s'' => exact ⟨follows.trans h.1, follows.mem_places h.2⟩

theorem Located.leave {answer : Parsed bound α} (h : answer.Located s.enter)
    (room : s.depth < maxNesting) : answer.leave.Located s := by
  cases answer with
  | ok value s' moved => exact Follows.leave h room
  | error fault s' => exact ⟨h.1.leave room, h.2⟩

theorem Located.widen {wider : Nat} {answer : Parsed bound α} (h : answer.Located s)
    (le : bound ≤ wider) : (answer.widen le).Located s := by
  cases answer with
  | ok value s' moved => exact h
  | error fault s' => exact h

end Parsed

namespace Expr

open Cursor

variable {bound : Nat} {α : Type} {level : Level} {s s' : Cursor}

/-! ## The steps that take no phrase -/

theorem located_grow {e : Expr} {height : Nat} {moved : s'.left < bound} (follows : s.Follows s')
    (place : e.offset ∈ s.places) : (grow e height s' moved).Located s := by
  unfold grow
  split
  · exact follows
  · exact ⟨follows, place⟩

theorem located_closing (value : α) (moved : s'.left < bound) (follows : s.Follows s')
    {opening : Nat} (place : opening ∈ s.places) :
    (closing opening value s' moved).Located s := by
  unfold closing
  split
  · exact ⟨follows, place⟩
  · next t rest found =>
    split
    · exact follows.trans (follows_goto found)
    · exact ⟨follows, follows.mem_places (places_cons found)⟩

theorem dottedName_suffix {name : String} {tokens rest : List PlacedToken}
    (h : dottedName name tokens = .error rest) : rest <:+ tokens := by
  fun_induction dottedName name tokens with
  | case1 name _ w _ rest' ih =>
    exact (ih h).trans ((List.suffix_cons _ _).trans (List.suffix_cons _ _))
  | case2 name _ rest' unfinished =>
    cases h
    apply List.suffix_cons
  | case3 name tokens => cases h

theorem located_parseVariable (word : String) (offset : Nat) (moved : s'.left < bound)
    (follows : s.Follows s') : (parseVariable word offset s' moved).Located s := by
  unfold parseVariable
  split
  · next rest failed =>
    have further := follows.trans (follows_goto_of_suffix (dottedName_suffix failed))
    exact ⟨further, further.mem_places (offset_mem_places _)⟩
  · next name rest read =>
    obtain ⟨-, taken, split_eq, -, -⟩ := dottedName_sound read
    have further := follows.trans (follows_goto_of_suffix ⟨taken, split_eq.symm⟩)
    dsimp only
    split
    · exact ⟨further, further.mem_places (offset_mem_places _)⟩
    · exact further

/-! ## The parsing functions, given where those that they call stand -/

theorem located_chain (form : level.form = .chain)
    (first_located : (parseAt level.tighter s).Located s)
    (continued : ∀ first s₁ (moved : s₁.left < s.left),
      (parseChain level first s₁ moved).Located s₁) :
    (parseAt level s).Located s := by
  rw [parseAt]
  split
  · split
    · next fault s₁ answer =>
      rw [answer] at first_located
      exact first_located
    · next first s₁ moved answer =>
      rw [answer] at first_located
      exact (continued first s₁ moved).back first_located
  · next other => cases form.symm.trans other
  · next other => cases form.symm.trans other
  · next other => cases form.symm.trans other

theorem located_prefixed (form : level.form = .prefixed)
    (plain : (parseAt level.tighter s).Located s)
    (operand_located : ∀ t rest, s.rest = t :: rest →
      (parseAt level (s.goto rest).enter).Located (s.goto rest).enter) :
    (parseAt level s).Located s := by
  rw [parseAt]
  split
  · next other => cases form.symm.trans other
  · split
    · exact plain
    · next t rest hs =>
      split
      · exact plain
      · next op spelled =>
        have taken := follows_goto hs
        dsimp only
        split
        · next room =>
          have outside := ((operand_located t rest hs).leave room).back taken
          split
          · next fault s₂ answer =>
            rw [answer] at outside
            exact outside
          · next operand s₂ moved answer =>
            rw [answer] at outside
            exact located_grow outside (places_cons hs)
        · exact ⟨taken, taken.mem_places (offset_mem_places _)⟩
  · next other => cases form.symm.trans other
  · next other => cases form.symm.trans other

theorem located_pair (left_located : (parseAt .sum s).Located s)
    (right_located : ∀ (s₁ : Cursor) t rest, s₁.left < s.left → s₁.rest = t :: rest →
      (parseAt .sum (s₁.goto rest)).Located (s₁.goto rest)) :
    (parseAt .comparison s).Located s := by
  rw [parseAt]
  dsimp only [Level.form, Level.tighter]
  split
  · next fault s₁ answer =>
    rw [answer] at left_located
    exact left_located
  · next left s₁ moved answer =>
    rw [answer] at left_located
    split
    · exact left_located
    · next t rest hs =>
      split
      · exact left_located
      · next op spelled =>
        have taken := Follows.trans left_located (follows_goto hs)
        have right_located := (right_located s₁ t rest moved hs).back taken
        split
        · next fault s₂ answer₂ =>
          rw [answer₂] at right_located
          exact right_located
        · next right s₂ moved₂ answer₂ =>
          rw [answer₂] at right_located
          split
          · exact ⟨right_located, Follows.mem_places right_located (offset_mem_places _)⟩
          · exact located_grow right_located (Follows.mem_places left_located (places_cons hs))

theorem located_links {first : Sized} {moved : s.left < bound}
    (second_located : ∀ t rest, s.rest = t :: rest →
      (parseAt level.tighter (s.goto rest)).Located (s.goto rest))
    (continued : ∀ both s₂ (moved : s₂.left < bound), s₂.left < s.left →
      (parseChain level both s₂ moved).Located s₂) :
    (parseChain level first s moved).Located s := by
  rw [parseChain]
  split
  · exact .refl s
  · next t rest hs =>
    have fewer := Cursor.left_goto_lt hs
    split
    · exact .refl s
    · next op spelled =>
      have second_located := (second_located t rest hs).back (follows_goto hs)
      split
      · next fault s₁ answer =>
        rw [answer] at second_located
        exact second_located
      · next second s₁ moved₁ answer =>
        rw [answer] at second_located
        have grown : (grow (.binary op first.expr second.expr t.offset)
            (max first.height second.height + 1) s₁ moved₁).Located s :=
          located_grow second_located (places_cons hs)
        split
        · next fault s₂ answer₂ =>
          rw [answer₂] at grown
          exact grown
        · next both s₂ moved₂ answer₂ =>
          rw [answer₂] at grown
          exact (continued both s₂ _ (Nat.lt_trans moved₂ fewer)).back grown

theorem located_enclosed (moved : s.left < bound) (room : s.depth < maxNesting)
    (h : (parseArguments s.enter).Located s.enter) :
    (if s.peek = some .rightParen then .ok [] s.enter moved
      else (parseArguments s.enter).widen (Nat.le_of_lt moved) :
      Parsed bound (List Sized)).leave.Located s := by
  apply Parsed.Located.leave _ room
  split
  · exact .refl _
  · exact h.widen _

theorem located_operand
    (inner_located : ∀ t rest, s.rest = t :: rest →
      (parseAt .or (s.goto rest).enter).Located (s.goto rest).enter)
    (arguments_located : ∀ t t' rest, s.rest = t :: t' :: rest →
      (parseArguments (s.goto rest).enter).Located (s.goto rest).enter) :
    (parseOperand s).Located s := by
  rw [parseOperand]
  split
  · exact ⟨.refl s, stop_mem_places s⟩
  · next t rest hs =>
    have taken := follows_goto hs
    have here := places_cons hs
    dsimp only
    split
    · exact taken
    · exact taken
    · next w token_eq =>
      split
      · exact taken
      · split
        · exact ⟨.refl s, here⟩
        · split
          · next opening rest' _ _ _ _ =>
            have taken : s.Follows (s.goto rest') :=
              follows_goto_of_suffix (hs ▸ (List.suffix_cons _ _).trans (List.suffix_cons _ _))
            have opens : opening ∈ s.places :=
              List.mem_append_left _ (hs ▸ List.mem_cons_of_mem _ List.mem_cons_self)
            split
            · next room =>
              have enclosed := (located_enclosed (Nat.lt_of_succ_lt (Cursor.left_goto_lt hs)) room
                (arguments_located _ _ rest' hs)).back taken
              split
              · next fault s₂ answer =>
                rw [answer] at enclosed
                exact enclosed
              · next arguments s₂ moved₂ answer =>
                rw [answer] at enclosed
                have closed := located_closing arguments moved₂ enclosed opens
                split
                · next fault s₃ answer₃ =>
                  rw [answer₃] at closed
                  exact closed
                · next arguments' s₃ moved₃ answer₃ =>
                  rw [answer₃] at closed
                  exact located_grow closed here
            · exact ⟨taken, taken.mem_places (offset_mem_places _)⟩
          · exact located_parseVariable w _ _ taken
    · split
      · next room =>
        have outside := ((inner_located t rest hs).leave room).back taken
        split
        · next fault s₂ answer =>
          rw [answer] at outside
          exact outside
        · next inner s₂ moved₂ answer =>
          rw [answer] at outside
          exact located_closing inner _ outside here
      · exact ⟨taken, taken.mem_places (offset_mem_places _)⟩
    · exact ⟨.refl s, here⟩

theorem located_arguments (argument_located : (parseAt .or s).Located s)
    (more_located : ∀ (s₁ : Cursor) t rest, s₁.left < s.left → s₁.rest = t :: rest →
      (parseArguments (s₁.goto rest)).Located (s₁.goto rest)) :
    (parseArguments s).Located s := by
  rw [parseArguments]
  split
  · next fault s₁ answer =>
    rw [answer] at argument_located
    exact argument_located
  · next argument s₁ moved answer =>
    rw [answer] at argument_located
    split
    · next offset rest hs =>
      have taken := Follows.trans argument_located (follows_goto hs)
      dsimp only
      split
      · exact ⟨taken, taken.mem_places (offset_mem_places _)⟩
      · have more_located := (more_located s₁ _ rest moved hs).back taken
        split
        · next fault s₃ answer₃ =>
          rw [answer₃] at more_located
          exact more_located
        · next arguments s₃ moved₃ answer₃ =>
          rw [answer₃] at more_located
          exact more_located
    · exact argument_located

/-! ## The recursion -/

theorem inherited_located : Inherited (fun level s ↦ (parseAt level s).Located s)
    (fun level first s ↦ ∀ (bound : Nat) (moved : s.left < bound),
      (parseChain level first s moved).Located s)
    (fun s ↦ (parseOperand s).Located s) (fun s ↦ (parseArguments s).Located s) where
  chain form first_located continued :=
    located_chain form first_located fun first s₁ moved ↦ continued first s₁ moved _ moved
  prefixed := located_prefixed
  pair := located_pair
  tightest operand_located := by
    rw [parseAt]
    exact operand_located
  links second_located continued bound moved :=
    located_links second_located fun both s₂ moved₂ fewer ↦ continued both s₂ fewer bound moved₂
  operand := located_operand
  arguments := located_arguments

/-! ## Whole texts -/

theorem offset_mem_of_ofTokens {list : TokenList} {fault : SyntaxError}
    (h : ofTokens list = .error fault) :
    fault.offset ∈ list.tokens.map PlacedToken.offset ++ [list.stop] := by
  have located := inherited_located.parseAt .or (.start list)
  unfold ofTokens at h
  split at h
  · next fault' s answer =>
    rw [answer] at located
    cases h
    exact located.2
  · next node s moved answer =>
    rw [answer] at located
    have next_place := Follows.mem_places located (offset_mem_places s)
    split at h
    · cases h
    · cases h
      exact next_place
    · cases h
      exact next_place

/-- Where reading or parsing a text fails, there is a character that is not white space or the end
of the text. -/
theorem marked_of_refused {text : String} {fault : SyntaxError}
    (unblank : ¬text.toList.all Text.isBlank = true) (h : parse text = .error fault) :
    fault.offset = text.toList.length ∨ Token.Marked text.toList fault.offset := by
  rw [parse, if_neg unblank] at h
  cases scanned : Token.scan text.toList with
  | error fault' =>
    rw [scanned] at h
    cases h
    exact .inr (Token.marked_of_scan scanned)
  | ok list =>
    rw [scanned] at h
    obtain ⟨pieces, last, split, divided, rfl⟩ := Token.exists_divided_of_scan scanned
    rcases List.mem_append.mp (offset_mem_of_ofTokens h) with token | stop
    · obtain ⟨t, member, offset_eq⟩ := List.mem_map.mp token
      rw [← offset_eq, split]
      exact .inr (Token.marked_of_mem_placed divided member)
    · exact .inl (List.mem_singleton.mp stop)

/-- An error is placed in the text or at its end. The character there, if there is one, is not white
space unless the whole text is, and then the error is placed at the beginning. -/
theorem fault_located (text : String) (fault : SyntaxError) (refused : parse text = .error fault) :
    fault.offset ≤ text.toList.length ∧
    (text.toList.all Text.isBlank = true → fault.offset = 0) ∧
    (¬text.toList.all Text.isBlank = true →
      ∀ c, text.toList[fault.offset]? = some c → Text.isBlank c = false) := by
  by_cases blank : text.toList.all Text.isBlank = true
  · rw [parse, if_pos blank] at refused
    cases refused
    exact ⟨Nat.zero_le _, fun _ ↦ rfl, fun unblank ↦ absurd blank unblank⟩
  · refine ⟨?_, fun blank' ↦ absurd blank' blank, fun _ c stands ↦ ?_⟩
    · rcases marked_of_refused blank refused with stop | marked
      · exact Nat.le_of_eq stop
      · exact Nat.le_of_lt marked.lt_length
    · rcases marked_of_refused blank refused with stop | ⟨d, found, unblank⟩
      · rw [stop, List.getElem?_eq_none (Nat.le_refl _)] at stands
        cases stands
      · cases found.symm.trans stands
        exact unblank

theorem eq_error_of_map {ε α β : Type} {x : Except ε α} {f : α → β} {fault : ε}
    (h : x.map f = .error fault) : x = .error fault := by
  cases x with
  | error fault' =>
    cases h
    rfl
  | ok a => cases h

/-- White space of three bytes is passed over and a letter of two is read. What fails is a letter
within a number, a parenthesis that is never closed, an argument that is missing before the end, and
the whole of a blank text. -/
theorem fault_located_of_wide_characters :
    let refusals : List (String × SyntaxError) :=
      [("\u3000(é + 12é", ⟨.afterNumber 'é', 8⟩), ("\u3000f(é\u3000", ⟨.unmatchedOpening, 2⟩),
        ("f(é,\u3000", ⟨.expectedOperand none, 5⟩), ("\u3000", ⟨.blank, 0⟩)]
    ∀ refusal ∈ refusals, parse refusal.1 = .error refusal.2 ∧
      refusal.2.offset ≤ refusal.1.toList.length ∧
      (refusal.1.toList.all Text.isBlank = true → refusal.2.offset = 0) ∧
      (¬refusal.1.toList.all Text.isBlank = true →
        ∀ c, refusal.1.toList[refusal.2.offset]? = some c → Text.isBlank c = false) := by
  intro refusals refusal listed
  have refused : ∀ refusal ∈ refusals, (parse refusal.1).map (fun _ ↦ ()) = .error refusal.2 := by
    decide +kernel
  have failed := eq_error_of_map (refused refusal listed)
  exact ⟨failed, fault_located refusal.1 refusal.2 failed⟩

end Expr

end FormRules
