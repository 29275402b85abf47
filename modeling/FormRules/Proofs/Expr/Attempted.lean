import FormRules.Proofs.Expr.Attempt
import FormRules.Proofs.Expr.Recursion

/-!
# Enough open calls for the parser

At the place of a cursor, a parsing function that may open more calls than a multiple of the tokens
that are left gives the answer of the parser there, and stands where the parser stands then.
-/

namespace FormRules.Attempt

open Cursor

variable {list : TokenList} {bound n : Nat} {level : Level} {s : Cursor}

/-! ## The parsing functions, given those that they call -/

theorem run_chain (form : level.form = .chain) (within : s.Within list)
    (first_told : (parseAt list n level.tighter).run (list.head s) =
      (Expr.parseAt level.tighter s).told list)
    (continued : ∀ first s₁ (moved : s₁.left < s.left), s₁.Within list →
      (parseChain list n level first).run (list.head s₁) =
        (Expr.parseChain level first s₁ moved).told list) :
    (parseAt list (n + 1) level).run (list.head s) = (Expr.parseAt level s).told list := by
  have located := Expr.inherited_located.parseAt level.tighter s
  rw [parseAt, form]
  dsimp only
  rw [Expr.parseAt]
  split
  · split
    · next fault s₁ answer =>
      rw [answer] at first_told
      exact run_bind_of_error first_told
    · next first s₁ moved answer =>
      rw [answer] at first_told located
      rw [run_bind_of_ok first_told]
      exact continued first s₁ moved (Follows.within located within)
  · next other => cases form.symm.trans other
  · next other => cases form.symm.trans other
  · next other => cases form.symm.trans other

theorem run_prefixed (form : level.form = .prefixed) (within : s.Within list)
    (plain : (parseAt list n level.tighter).run (list.head s) =
      (Expr.parseAt level.tighter s).told list)
    (operand_told : ∀ t rest, s.rest = t :: rest →
      (parseAt list n level).run (list.head (s.goto rest).enter) =
        (Expr.parseAt level (s.goto rest).enter).told list) :
    (parseAt list (n + 1) level).run (list.head s) = (Expr.parseAt level s).told list := by
  rw [parseAt, form]
  dsimp only
  rw [Expr.parseAt]
  split
  · next other => cases form.symm.trans other
  · split
    · next hs =>
      rw [run_peek_bind_of_nil within hs]
      exact plain
    · next t rest hs =>
      rw [run_peek_bind_of_rest within hs, Option.bind_some]
      cases spelled : level.unary? t.token with
      | none => exact plain
      | some op =>
        have taken : (s.goto rest).Within list := (follows_goto hs).within within
        dsimp only
        rw [run_take within hs]
        split
        · next room =>
          have outside := run_nested room (operand_told t rest hs)
          split
          · next fault s₂ answer =>
            rw [answer] at outside
            exact run_bind_of_error outside
          · next operand s₂ moved answer =>
            rw [answer] at outside
            rw [run_bind_of_ok outside]
            exact run_grow _
        · next deep => exact run_bind_of_error (run_nested_of_deep taken deep _)
  · next other => cases form.symm.trans other
  · next other => cases form.symm.trans other

theorem run_pair (within : s.Within list)
    (left_told : (parseAt list n .sum).run (list.head s) = (Expr.parseAt .sum s).told list)
    (right_told : ∀ (s₁ : Cursor) t rest, s₁.left < s.left → s₁.rest = t :: rest →
      s₁.Within list →
      (parseAt list n .sum).run (list.head (s₁.goto rest)) =
        (Expr.parseAt .sum (s₁.goto rest)).told list) :
    (parseAt list (n + 1) .comparison).run (list.head s) =
      (Expr.parseAt .comparison s).told list := by
  have left_located := Expr.inherited_located.parseAt .sum s
  rw [parseAt, Expr.parseAt]
  dsimp only [Level.form, Level.tighter]
  split
  · next fault s₁ answer =>
    rw [answer] at left_told
    exact run_bind_of_error left_told
  · next left s₁ moved answer =>
    rw [answer] at left_told left_located
    have after_left : s₁.Within list := Follows.within left_located within
    rw [run_bind_of_ok left_told]
    split
    · next hs =>
      rw [run_peek_bind_of_nil after_left hs]
      rfl
    · next t rest hs =>
      rw [run_peek_bind_of_rest after_left hs, Option.bind_some]
      cases spelled : Level.comparison.binary? t.token with
      | none => rfl
      | some op =>
        have right_located := Expr.inherited_located.parseAt .sum (s₁.goto rest)
        have right_told := right_told s₁ t rest moved hs after_left
        dsimp only
        rw [run_take after_left hs]
        split
        · next fault s₂ answer₂ =>
          rw [answer₂] at right_told
          exact run_bind_of_error right_told
        · next right s₂ moved₂ answer₂ =>
          rw [answer₂] at right_told right_located
          have after_right : s₂.Within list :=
            Follows.within right_located ((follows_goto hs).within after_left)
          rw [run_bind_of_ok right_told, run_bind_of_ok (run_peek after_right)]
          by_cases chained : (s₂.peek.bind Level.comparison.binary?).isSome
          · rw [if_pos chained, if_pos chained]
            exact run_failHere after_right _
          · rw [if_neg chained, if_neg chained]
            exact run_grow _

theorem run_links {first : Sized} {moved : s.left < bound} (within : s.Within list)
    (second_told : ∀ t rest, s.rest = t :: rest →
      (parseAt list n level.tighter).run (list.head (s.goto rest)) =
        (Expr.parseAt level.tighter (s.goto rest)).told list)
    (continued : ∀ both s₂ (moved : s₂.left < bound), s₂.left < s.left → s₂.Within list →
      (parseChain list n level both).run (list.head s₂) =
        (Expr.parseChain level both s₂ moved).told list) :
    (parseChain list (n + 1) level first).run (list.head s) =
      (Expr.parseChain level first s moved).told list := by
  rw [parseChain, Expr.parseChain]
  split
  · next hs =>
    rw [run_peek_bind_of_nil within hs]
    rfl
  · next t rest hs =>
    have fewer := Cursor.left_goto_lt hs
    rw [run_peek_bind_of_rest within hs, Option.bind_some]
    cases spelled : level.binary? t.token with
    | none => rfl
    | some op =>
      have second_told := second_told t rest hs
      have second_located :=
        (Expr.inherited_located.parseAt level.tighter (s.goto rest)).back (follows_goto hs)
      dsimp only
      rw [run_take within hs]
      split
      · next fault s₁ answer =>
        rw [answer] at second_told
        exact run_bind_of_error second_told
      · next second s₁ moved₁ answer =>
        rw [answer] at second_told second_located
        let both : Expr := .binary op first.expr second.expr t.offset
        let height := max first.height second.height + 1
        have grown : (grow both height).run (list.head s₁) =
          (Expr.grow both height s₁ moved₁).told list := run_grow moved₁
        have grown_located : (Expr.grow both height s₁ moved₁).Located s :=
          Expr.located_grow second_located (places_cons hs)
        rw [run_bind_of_ok second_told]
        split
        · next fault s₂ answer₂ =>
          rw [answer₂] at grown
          exact run_bind_of_error grown
        · next both s₂ moved₂ answer₂ =>
          rw [answer₂] at grown grown_located
          rw [run_bind_of_ok grown]
          exact continued both s₂ _ (Nat.lt_trans moved₂ fewer)
            (Follows.within grown_located within)

theorem run_enclosed (within : s.Within list) (room : s.depth < maxNesting)
    (moved : s.left < bound)
    (arguments_told : (parseArguments list n).run (list.head s.enter) =
      (Expr.parseArguments s.enter).told list) :
    (nested list do
      let found ← peek list
      if found = some .rightParen then pure [] else parseArguments list n).run (list.head s) =
      (if s.peek = some .rightParen then .ok [] s.enter moved
        else (Expr.parseArguments s.enter).widen (Nat.le_of_lt moved) :
        Parsed bound (List Sized)).leave.told list := by
  apply run_nested room
  rw [run_bind_of_ok (run_peek within.enter)]
  by_cases closed : s.peek = some .rightParen
  · rw [if_pos closed, if_pos (show s.enter.peek = _ from closed)]
    rfl
  · rw [if_neg closed, if_neg (show ¬s.enter.peek = _ from closed), arguments_told]
    exact (Parsed.told_widen ..).symm

theorem run_operand (within : s.Within list) (enough : s.left ≤ n)
    (inner_told : ∀ t rest, s.rest = t :: rest →
      (parseAt list n .or).run (list.head (s.goto rest).enter) =
        (Expr.parseAt .or (s.goto rest).enter).told list)
    (arguments_told : ∀ t t' rest, s.rest = t :: t' :: rest →
      (parseArguments list n).run (list.head (s.goto rest).enter) =
        (Expr.parseArguments (s.goto rest).enter).told list) :
    (parseOperand list (n + 1)).run (list.head s) = (Expr.parseOperand s).told list := by
  rw [parseOperand, run_bind_of_ok (run_offset within), Expr.parseOperand]
  split
  · next hs =>
    have at_end : s.offset = s.stop := by rw [Cursor.offset, hs]
    rw [run_peek_bind_of_nil within hs, ← at_end]
    exact run_failHere within _
  · next t rest hs =>
    have taken : (s.goto rest).Within list := (follows_goto hs).within within
    have fewer := Cursor.left_goto_lt hs
    rw [run_peek_bind_of_rest within hs, offset_of_rest hs]
    cases token_eq : t.token with
    | number digits =>
      dsimp only
      rw [run_bind_of_ok (run_advance within hs)]
      rfl
    | text content =>
      dsimp only
      rw [run_bind_of_ok (run_advance within hs)]
      rfl
    | word w =>
      dsimp only
      split
      · rw [run_bind_of_ok (run_advance within hs)]
        rfl
      · split
        · exact offset_of_rest hs ▸ run_failHere within _
        · -- The word is looked at a second time before it is taken.
          rw [reference, run_bind_of_ok (run_offset within), run_peek_bind_of_rest within hs,
            offset_of_rest hs, token_eq]
          dsimp only
          rw [run_bind_of_ok (run_advance within hs), referenceFrom]
          split
          · next opening rest' _ _ _ _ =>
            have beyond : (s.goto rest').Within list := taken.goto (List.suffix_cons _ _)
            rw [run_peek_bind_of_rest taken rfl, if_pos rfl, call, run_take taken rfl, goto_goto]
            split
            · next room =>
              have enclosed := run_enclosed beyond room (Nat.lt_of_succ_lt fewer)
                (arguments_told _ _ rest' hs)
              have located := Expr.located_enclosed (Nat.lt_of_succ_lt fewer) room
                (Expr.inherited_located.parseArguments (s.goto rest').enter)
              split
              · next fault s₂ answer =>
                rw [answer] at enclosed
                exact run_bind_of_error enclosed
              · next arguments s₂ moved₂ answer =>
                rw [answer] at enclosed located
                have closed := run_closing (Follows.within located beyond) opening arguments moved₂
                rw [run_bind_of_ok enclosed]
                split
                · next fault s₃ answer₃ =>
                  rw [answer₃] at closed
                  exact run_bind_of_error closed
                · next arguments' s₃ moved₃ answer₃ =>
                  rw [answer₃] at closed
                  rw [run_bind_of_ok closed]
                  exact run_grow _
            · next deep => exact run_bind_of_error (run_nested_of_deep beyond deep _)
          · next unopened =>
            have bare : (s.goto rest).peek ≠ some .leftParen := by
              intro opens
              obtain ⟨⟨_, opening⟩, rest', same, rfl⟩ := exists_of_peek opens
              obtain rfl : rest = ⟨.leftParen, opening⟩ :: rest' := same
              exact unopened opening rest' hs fewer rfl HEq.rfl HEq.rfl
            rw [run_bind_of_ok (run_peek taken), if_neg bare]
            exact run_variableFrom w _ taken fewer (Nat.lt_of_lt_of_le fewer enough)
    | leftParen =>
      dsimp only
      rw [run_bind_of_ok (run_advance within hs)]
      split
      · next room =>
        have outside := run_nested room (inner_told t rest hs)
        have located :=
          ((Expr.inherited_located.parseAt .or (s.goto rest).enter).leave room)
        split
        · next fault s₂ answer =>
          rw [answer] at outside
          exact run_bind_of_error outside
        · next inner s₂ moved₂ answer =>
          rw [answer] at outside located
          rw [run_bind_of_ok outside]
          exact run_closing (Follows.within located taken) _ _ _
      · next deep => exact run_bind_of_error (run_nested_of_deep taken deep _)
    | _ => exact offset_of_rest hs ▸ run_failHere within _

theorem run_arguments (within : s.Within list)
    (argument_told : (parseAt list n .or).run (list.head s) = (Expr.parseAt .or s).told list)
    (more_told : ∀ (s₁ : Cursor) t rest, s₁.left < s.left → s₁.rest = t :: rest →
      s₁.Within list →
      (parseArguments list n).run (list.head (s₁.goto rest)) =
        (Expr.parseArguments (s₁.goto rest)).told list) :
    (parseArguments list (n + 1)).run (list.head s) = (Expr.parseArguments s).told list := by
  have argument_located := Expr.inherited_located.parseAt .or s
  rw [parseArguments, Expr.parseArguments]
  split
  · next fault s₁ answer =>
    rw [answer] at argument_told
    exact run_bind_of_error argument_told
  · next argument s₁ moved answer =>
    rw [answer] at argument_told argument_located
    have after_argument : s₁.Within list := Follows.within argument_located within
    rw [run_bind_of_ok argument_told]
    split
    · next offset rest hs =>
      have taken : (s₁.goto rest).Within list := (follows_goto hs).within after_argument
      have more_told := more_told s₁ _ rest moved hs after_argument
      rw [run_peek_bind_of_rest after_argument hs, if_pos rfl,
        run_bind_of_ok (run_advance after_argument hs), run_bind_of_ok (run_peek taken)]
      dsimp only
      by_cases trailing : (s₁.goto rest).peek = some .rightParen
      · rw [if_pos trailing, if_pos trailing]
        exact run_failHere taken _
      · rw [if_neg trailing, if_neg trailing]
        split
        · next fault s₃ answer₃ =>
          rw [answer₃] at more_told
          exact run_bind_of_error more_told
        · next arguments s₃ moved₃ answer₃ =>
          rw [answer₃] at more_told
          rw [run_bind_of_ok more_told]
          rfl
    · next last =>
      have ends : s₁.peek ≠ some .comma := by
        intro comma
        obtain ⟨⟨_, offset⟩, rest, hs, rfl⟩ := exists_of_peek comma
        exact last offset rest hs
      rw [run_bind_of_ok (run_peek after_argument), if_neg ends]
      rfl

/-! ## The recursion -/

/-- Whatever the attempt given more than `enough` calls, it gives the answer. -/
def Told {α : Type} {bound : Nat} (list : TokenList) (s : Cursor) (enough : Nat)
    (attempt : Nat → Attempt α) (answer : Parsed bound α) : Prop :=
  s.Within list → ∀ n, enough < n → (attempt n).run (list.head s) = answer.told list

-- What is left here is to count: a tighter level or fewer tokens need fewer calls.
theorem inherited_told (list : TokenList) :
    Expr.Inherited
      (fun level s ↦ Told list s (10 * s.left + level.rank + 1) (parseAt list · level)
        (Expr.parseAt level s))
      (fun level first s ↦ ∀ (bound : Nat) (moved : s.left < bound),
        Told list s (10 * s.left) (parseChain list · level first)
          (Expr.parseChain level first s moved))
      (fun s ↦ Told list s (10 * s.left) (parseOperand list) (Expr.parseOperand s))
      (fun s ↦ Told list s (10 * s.left + 9) (parseArguments list) (Expr.parseArguments s)) where
  chain {level s} form tighter continued within n enough := by
    obtain ⟨n, rfl⟩ := Nat.exists_eq_add_one_of_ne_zero (Nat.ne_zero_of_lt enough)
    have lower : level.tighter.rank < level.rank := Level.rank_tighter_lt (by rw [form]; decide)
    refine run_chain form within (tighter within n (by omega)) fun first s₁ moved within₁ ↦ ?_
    exact continued first s₁ moved _ moved within₁ n (by omega)
  prefixed {level s} form plain operand within n enough := by
    obtain ⟨n, rfl⟩ := Nat.exists_eq_add_one_of_ne_zero (Nat.ne_zero_of_lt enough)
    have lower : level.tighter.rank < level.rank := Level.rank_tighter_lt (by rw [form]; decide)
    refine run_prefixed form within (plain within n (by omega)) fun t rest hs ↦ ?_
    have fewer := left_goto_lt hs
    exact operand t rest hs ((follows_goto hs).within within).enter n
      (by rw [left_enter]; omega)
  pair {s} left right within n enough := by
    obtain ⟨n, rfl⟩ := Nat.exists_eq_add_one_of_ne_zero (Nat.ne_zero_of_lt enough)
    simp only [Level.rank] at enough left right
    refine run_pair within (left within n (by omega)) fun s₁ t rest moved hs within₁ ↦ ?_
    have fewer := left_goto_lt hs
    exact right s₁ t rest moved hs ((follows_goto hs).within within₁) n (by omega)
  tightest {s} operand within n enough := by
    obtain ⟨n, rfl⟩ := Nat.exists_eq_add_one_of_ne_zero (Nat.ne_zero_of_lt enough)
    change (parseAt list (n + 1) .operand).run (list.head s) = _
    rw [parseAt, Expr.parseAt]
    exact operand within n (by omega)
  links {level first s} second continued bound moved within n enough := by
    obtain ⟨n, rfl⟩ := Nat.exists_eq_add_one_of_ne_zero (Nat.ne_zero_of_lt enough)
    refine run_links within (fun t rest hs ↦ ?_) fun both s₂ moved₂ fewer within₂ ↦ ?_
    · have fewer := left_goto_lt hs
      have bounded := level.tighter.rank_le
      exact second t rest hs ((follows_goto hs).within within) n (by omega)
    · exact continued both s₂ fewer bound moved₂ within₂ n (by omega)
  operand {s} inner arguments within n enough := by
    obtain ⟨n, rfl⟩ := Nat.exists_eq_add_one_of_ne_zero (Nat.ne_zero_of_lt enough)
    refine run_operand within (by omega) (fun t rest hs ↦ ?_) fun t t' rest hs ↦ ?_
    · have fewer := left_goto_lt hs
      exact inner t rest hs ((follows_goto hs).within within).enter n
        (by rw [left_enter, Level.rank]; omega)
    · have fewer : s.left = rest.length + 2 := congrArg List.length hs
      refine arguments t t' rest hs (within.goto ?_).enter n (by rw [left_enter, left_goto]; omega)
      exact hs ▸ (List.suffix_cons _ _).trans (List.suffix_cons _ _)
  arguments {s} argument more within n enough := by
    obtain ⟨n, rfl⟩ := Nat.exists_eq_add_one_of_ne_zero (Nat.ne_zero_of_lt enough)
    simp only [Level.rank] at argument
    refine run_arguments within (argument within n (by omega)) fun s₁ t rest moved hs within₁ ↦ ?_
    have fewer := left_goto_lt hs
    exact more s₁ t rest moved hs ((follows_goto hs).within within₁) n (by omega)

/-! ## The same number of calls at every place -/

section

variable (enough : 10 * (list.tokens.length + 1) ≤ n)

include enough

theorem run_parseAt (level : Level) (s : Cursor) (within : s.Within list) :
    (parseAt list n level).run (list.head s) = (Expr.parseAt level s).told list := by
  have left_le := within.left_le
  have rank_le := level.rank_le
  exact (inherited_told list).parseAt level s within n (by omega)

theorem run_parseOperand (s : Cursor) (within : s.Within list) :
    (parseOperand list n).run (list.head s) = (Expr.parseOperand s).told list := by
  have left_le := within.left_le
  exact (inherited_told list).parseOperand s within n (by omega)

theorem run_parseArguments (s : Cursor) (within : s.Within list) :
    (parseArguments list n).run (list.head s) = (Expr.parseArguments s).told list := by
  have left_le := within.left_le
  exact (inherited_told list).parseArguments s within n (by omega)

end

end FormRules.Attempt
