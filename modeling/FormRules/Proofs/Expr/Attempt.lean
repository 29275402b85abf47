import FormRules.Proofs.Expr.Located

/-!
# Parsing with a bound on open calls

A parser that walks over a fixed token list. Its place is the number of tokens before it, at the end
of the list it stands still, and no step is known to move on. So there is nothing to recurse on, and
it may open only so many calls within one another. It gives up where more are needed, but given more
than a multiple of the tokens that are left it always gives the answer of the parser.
-/

namespace FormRules

/-- A place in a token list, by the number of tokens before it. -/
structure Head where
  position : Nat
  /-- How many nesting constructs are open here. -/
  depth : Nat
deriving DecidableEq, Repr

namespace Head

def enter (head : Head) : Head := { head with depth := head.depth + 1 }

def leave (head : Head) : Head := { head with depth := head.depth - 1 }

end Head

/-- How a walk ends: with a value or an error, and where. -/
structure Ending (α : Type) where
  result : Except SyntaxError α
  head : Head
  /-- Every place to which the walk has gone, in order. -/
  through : List Head

/-- A walk from a place, which ends or is given up. -/
structure Attempt (α : Type) where
  walk : Head → Option (Ending α)

namespace Attempt

variable {α β : Type}

instance : Monad Attempt where
  pure value := ⟨fun head ↦ some ⟨.ok value, head, []⟩⟩
  bind first next := ⟨fun head ↦
    match first.walk head with
    | some ⟨.ok value, head', through⟩ =>
      ((next value).walk head').map fun ending ↦
        { ending with through := through ++ ending.through }
    | some ⟨.error fault, head', through⟩ => some ⟨.error fault, head', through⟩
    | none => none⟩

/-- The result of a walk and the place where it ends. -/
def run (attempt : Attempt α) (head : Head) : Option (Except SyntaxError α × Head) :=
  (attempt.walk head).map fun ending ↦ (ending.result, ending.head)

/-- Gives up. -/
def exhausted : Attempt α := ⟨fun _ ↦ none⟩

def fail (fault : SyntaxError) : Attempt α := ⟨fun head ↦ some ⟨.error fault, head, []⟩⟩

/-- Tells something of the place. -/
def tell (f : Head → α) : Attempt α := ⟨fun head ↦ some ⟨.ok (f head), head, []⟩⟩

def grow (expr : Expr) (height : Nat) : Attempt Sized :=
  if height ≤ maxHeight then pure ⟨expr, height⟩ else fail ⟨.tooComplex, expr.offset⟩

section

variable (list : TokenList)

/-- The token at the place, or nothing at the end of the list. -/
def peek : Attempt (Option Token) :=
  tell fun head ↦ list.tokens[head.position]?.map PlacedToken.token

def offset : Attempt Nat :=
  tell fun head ↦ (list.tokens[head.position]?.map PlacedToken.offset).getD list.stop

/-- Goes past a token. At the end of the list the place stays the same. -/
def advance : Attempt Unit :=
  ⟨fun head ↦
    let head' := if head.position < list.tokens.length then
      { head with position := head.position + 1 } else head
    some ⟨.ok (), head', [head']⟩⟩

def failHere (cause : SyntaxError.Cause) : Attempt α := do
  let offset ← offset list
  fail ⟨cause, offset⟩

/-- Does something one nesting construct further in, which is left again however that ends. -/
def nested (inner : Attempt α) : Attempt α :=
  ⟨fun head ↦
    if head.depth < maxNesting then
      (inner.walk head.enter).map fun ending ↦
        ⟨ending.result, ending.head.leave,
          head.enter :: (ending.through ++ [ending.head.leave])⟩
    else (failHere list .nestedTooDeeply).walk head⟩

/-- Takes the closing parenthesis of the one at offset `opening`. -/
def closing (opening : Nat) (value : α) : Attempt α := do
  let found ← peek list
  match found with
  | none => fail ⟨.unmatchedOpening, opening⟩
  | some found =>
    if found = .rightParen then
      advance list
      pure value
    else failHere list (.expectedClosing found)

def dottedName : Nat → String → Attempt String
  | 0, _ => exhausted
  | n + 1, name => do
    let found ← peek list
    if found = some .dot then
      advance list
      let next ← peek list
      match next with
      | some (.word w) =>
        advance list
        dottedName n (name ++ "." ++ w)
      | _ => failHere list (.expectedProperty next)
    else pure name

/-- A variable whose first word has been taken. -/
def variableFrom (n : Nat) (word : String) (offset : Nat) : Attempt Sized := do
  let name ← dottedName list n word
  let found ← peek list
  if found = some .leftParen then failHere list (.notCallable name)
  else pure (.leaf (.reference name offset))

/-- A call whose name has been taken. -/
def call (arguments : Attempt (List Sized)) (name : String) (offset : Nat) : Attempt Sized := do
  let opening ← Attempt.offset list
  advance list
  let arguments ← nested list do
    let found ← peek list
    if found = some .rightParen then pure [] else arguments
  let arguments ← closing list opening arguments
  grow (.call name (arguments.map Sized.expr) offset) (Sized.greatest arguments + 1)

/-- A variable or a call, whose first word has been taken. -/
def referenceFrom (n : Nat) (arguments : Attempt (List Sized)) (word : String) (offset : Nat) :
    Attempt Sized := do
  let next ← peek list
  if next = some .leftParen then call list arguments word offset
  else variableFrom list n word offset

/-- A variable or a call, where a word stands. -/
def reference (n : Nat) (arguments : Attempt (List Sized)) : Attempt Sized := do
  let offset ← offset list
  let found ← peek list
  match found with
  | some (.word w) =>
    advance list
    referenceFrom list n arguments w offset
  | _ => failHere list (.expectedIdentifier found)

mutual

def parseAt : Nat → Level → Attempt Sized
  | 0, _ => exhausted
  | n + 1, level =>
    match level.form with
    | .chain => do
      let first ← parseAt n level.tighter
      parseChain n level first
    | .prefixed => do
      let found ← peek list
      match found.bind level.unary? with
      | none => parseAt n level.tighter
      | some op =>
        let offset ← offset list
        advance list
        let operand ← nested list (parseAt n level)
        grow (.unary op operand.expr offset) (operand.height + 1)
    | .pair => do
      let left ← parseAt n level.tighter
      let found ← peek list
      match found.bind level.binary? with
      | none => pure left
      | some op =>
        let offset ← offset list
        advance list
        let right ← parseAt n level.tighter
        let next ← peek list
        if (next.bind level.binary?).isSome then failHere list .chainedComparison
        else grow (.binary op left.expr right.expr offset) (max left.height right.height + 1)
    | .operand => parseOperand n

def parseChain : Nat → Level → Sized → Attempt Sized
  | 0, _, _ => exhausted
  | n + 1, level, first => do
    let found ← peek list
    match found.bind level.binary? with
    | none => pure first
    | some op =>
      let offset ← offset list
      advance list
      let second ← parseAt n level.tighter
      let both ← grow (.binary op first.expr second.expr offset)
        (max first.height second.height + 1)
      parseChain n level both

def parseOperand : Nat → Attempt Sized
  | 0 => exhausted
  | n + 1 => do
    let offset ← offset list
    let found ← peek list
    match found with
    | some (.number digits) =>
      advance list
      pure (.leaf (.literal (.number digits) offset))
    | some (.text content) =>
      advance list
      pure (.leaf (.literal (.text content) offset))
    | some (.word w) =>
      if w = "true" || w = "false" then
        advance list
        pure (.leaf (.literal (.boolean (w = "true")) offset))
      else if w ∈ reservedWords then failHere list (.expectedOperand found)
      else reference list n (parseArguments n)
    | some .leftParen =>
      advance list
      let inner ← nested list (parseAt n .or)
      closing list offset inner
    | _ => failHere list (.expectedOperand found)

def parseArguments : Nat → Attempt (List Sized)
  | 0 => exhausted
  | n + 1 => do
    let argument ← parseAt n .or
    let found ← peek list
    if found = some .comma then
      advance list
      let next ← peek list
      if next = some .rightParen then failHere list .expectedArgument
      else
        let arguments ← parseArguments n
        pure (argument :: arguments)
    else pure [argument]

end

end

end Attempt

/-! ## Places of a cursor -/

/-- A cursor stands before the last tokens of a list. -/
structure Cursor.Within (list : TokenList) (s : Cursor) : Prop where
  rest : s.rest <:+ list.tokens
  stop : s.stop = list.stop

/-- The place at which a cursor stands. -/
def TokenList.head (list : TokenList) (s : Cursor) : Head :=
  ⟨list.tokens.length - s.left, s.depth⟩

/-- A cursor at a place. -/
def TokenList.cursor (list : TokenList) (head : Head) : Cursor :=
  ⟨list.tokens.drop head.position, list.stop, head.depth, head.depth⟩

/-- An answer, with the place at which the parser stands then. -/
def Parsed.told {bound : Nat} {α : Type} (list : TokenList) :
    Parsed bound α → Option (Except SyntaxError α × Head)
  | .ok value s _ => some (.ok value, list.head s)
  | .error fault s => some (.error fault, list.head s)

theorem Parsed.told_widen {bound wider : Nat} {α : Type} (list : TokenList) (le : bound ≤ wider)
    (answer : Parsed bound α) : (answer.widen le).told list = answer.told list := by
  cases answer <;> rfl

variable {list : TokenList} {s s' : Cursor} {t : PlacedToken} {rest : List PlacedToken}

namespace Cursor

theorem Follows.within (h : s.Follows s') (within : s.Within list) : s'.Within list :=
  ⟨h.rest.trans within.rest, h.stop.trans within.stop⟩

theorem Within.enter (h : s.Within list) : s.enter.Within list := ⟨h.rest, h.stop⟩

theorem Within.goto (h : s.Within list) (suffix : rest <:+ s.rest) : (s.goto rest).Within list :=
  (follows_goto_of_suffix suffix).within h

theorem goto_goto (s : Cursor) (before rest : List PlacedToken) :
    (s.goto before).goto rest = s.goto rest := rfl

theorem peek_of_rest (h : s.rest = t :: rest) : s.peek = some t.token := by
  rw [peek, h, List.head?_cons, Option.map_some]

theorem peek_of_nil (h : s.rest = []) : s.peek = none := by
  rw [peek, h, List.head?_nil, Option.map_none]

theorem exists_of_peek {token : Token} (h : s.peek = some token) :
    ∃ t rest, s.rest = t :: rest ∧ t.token = token := by
  obtain ⟨t, first, same⟩ := Option.map_eq_some_iff.mp h
  obtain ⟨rest, hs⟩ := List.head?_eq_some_iff.mp first
  exact ⟨t, rest, hs, same⟩

theorem offset_of_rest (h : s.rest = t :: rest) : s.offset = t.offset := by
  rw [offset, h]

theorem Within.left_le (h : s.Within list) : s.left ≤ list.tokens.length := h.rest.length_le

theorem Within.getElem?_tokens (h : s.Within list) :
    list.tokens[(list.head s).position]? = s.rest.head? := by
  obtain ⟨before, split⟩ := h.rest
  rw [TokenList.head, left, ← split, List.length_append, Nat.add_sub_cancel,
    List.getElem?_append_right (Nat.le_refl _), Nat.sub_self, List.head?_eq_getElem?]

theorem within_cursor (list : TokenList) (head : Head) : (list.cursor head).Within list :=
  ⟨List.drop_suffix _ _, rfl⟩

theorem head_cursor {head : Head} (inside : head.position ≤ list.tokens.length) :
    list.head (list.cursor head) = head := by
  have position : list.tokens.length - (list.tokens.drop head.position).length =
      head.position := by
    rw [List.length_drop]
    omega
  rw [TokenList.head, left, TokenList.cursor, position]

end Cursor

namespace Attempt

open Cursor

variable {α β : Type} {bound n : Nat} {level : Level}

/-! ## Steps of the walk at the place of a cursor -/

theorem run_bind (first : Attempt α) (next : α → Attempt β) (head : Head) :
    (first >>= next).run head =
      match first.run head with
      | some (Except.ok value, head') => (next value).run head'
      | some (.error fault, head') => some (.error fault, head')
      | none => none := by
  dsimp only [run, bind]
  cases first.walk head with
  | none => rfl
  | some ending =>
    obtain ⟨result, head', through⟩ := ending
    cases result with
    | error fault => rfl
    | ok value =>
      dsimp only [Option.map_some]
      rw [Option.map_map]
      rfl

theorem run_bind_of_ok {first : Attempt α} {next : α → Attempt β} {head head' : Head} {value : α}
    (h : first.run head = some (.ok value, head')) :
    (first >>= next).run head = (next value).run head' := by
  rw [run_bind, h]

theorem run_bind_of_error {first : Attempt α} {next : α → Attempt β} {head head' : Head}
    {fault : SyntaxError} (h : first.run head = some (.error fault, head')) :
    (first >>= next).run head = some (.error fault, head') := by
  rw [run_bind, h]

theorem run_peek (within : s.Within list) :
    (peek list).run (list.head s) = some (.ok s.peek, list.head s) := by
  dsimp only [run, peek, tell, Option.map_some]
  rw [within.getElem?_tokens]
  rfl

theorem run_offset (within : s.Within list) :
    (offset list).run (list.head s) = some (.ok s.offset, list.head s) := by
  dsimp only [run, offset, tell, Option.map_some]
  rw [within.getElem?_tokens, ← within.stop, Cursor.offset]
  cases s.rest <;> rfl

theorem run_advance (within : s.Within list) (hs : s.rest = t :: rest) :
    (advance list).run (list.head s) = some (.ok (), list.head (s.goto rest)) := by
  have here : s.left = rest.length + 1 := congrArg List.length hs
  have le := within.left_le
  have inside : list.tokens.length - s.left < list.tokens.length := by omega
  have moved : list.tokens.length - s.left + 1 = list.tokens.length - rest.length := by omega
  dsimp only [run, advance, TokenList.head]
  rw [if_pos inside, moved]
  rfl

theorem run_peek_bind_of_rest (within : s.Within list) (hs : s.rest = t :: rest)
    (next : Option Token → Attempt β) :
    (peek list >>= next).run (list.head s) = (next (some t.token)).run (list.head s) := by
  rw [run_bind_of_ok (run_peek within), peek_of_rest hs]

theorem run_peek_bind_of_nil (within : s.Within list) (hs : s.rest = [])
    (next : Option Token → Attempt β) :
    (peek list >>= next).run (list.head s) = (next none).run (list.head s) := by
  rw [run_bind_of_ok (run_peek within), peek_of_nil hs]

/-- A token is gone past after its offset has been noted. -/
theorem run_take (within : s.Within list) (hs : s.rest = t :: rest) (next : Nat → Attempt β) :
    (offset list >>= fun offset ↦ advance list >>= fun _ ↦ next offset).run (list.head s) =
      (next t.offset).run (list.head (s.goto rest)) := by
  rw [run_bind_of_ok (run_offset within), offset_of_rest hs,
    run_bind_of_ok (run_advance within hs)]

theorem run_failHere (within : s.Within list) (cause : SyntaxError.Cause) :
    (failHere list cause : Attempt α).run (list.head s) =
      some (.error ⟨cause, s.offset⟩, list.head s) := by
  rw [failHere, run_bind_of_ok (run_offset within)]
  rfl

theorem walk_nested {head : Head} (room : head.depth < maxNesting) (inner : Attempt α) :
    (nested list inner).walk head = (inner.walk head.enter).map fun ending ↦
      ⟨ending.result, ending.head.leave, head.enter :: (ending.through ++ [ending.head.leave])⟩ :=
  if_pos room

theorem walk_nested_of_deep {head : Head} (deep : ¬head.depth < maxNesting) (inner : Attempt α) :
    (nested list inner).walk head = (failHere list .nestedTooDeeply : Attempt α).walk head :=
  if_neg deep

theorem run_nested (room : s.depth < maxNesting) {inner : Attempt α} {answer : Parsed bound α}
    (h : inner.run (list.head s.enter) = answer.told list) :
    (nested list inner).run (list.head s) = answer.leave.told list := by
  have left : (nested list inner).run (list.head s) =
      (inner.run (list.head s.enter)).map fun told ↦ (told.1, told.2.leave) := by
    rw [run, walk_nested room, run, Option.map_map, Option.map_map]
    rfl
  rw [left, h]
  cases answer <;> rfl

theorem run_nested_of_deep (within : s.Within list) (deep : ¬s.depth < maxNesting)
    (inner : Attempt α) : (nested list inner).run (list.head s) =
      some (.error ⟨.nestedTooDeeply, s.offset⟩, list.head s) := by
  rw [run, walk_nested_of_deep deep]
  exact run_failHere within _

theorem run_grow {e : Expr} {height : Nat} (moved : s.left < bound) :
    (grow e height).run (list.head s) = (Expr.grow e height s moved).told list := by
  rw [grow, Expr.grow]
  split <;> rfl

theorem run_closing (within : s.Within list) (opening : Nat) (value : α) (moved : s.left < bound) :
    (closing list opening value).run (list.head s) =
      (Expr.closing opening value s moved).told list := by
  unfold Expr.closing
  split
  · next hs =>
    rw [closing, run_peek_bind_of_nil within hs]
    rfl
  · next t rest hs =>
    rw [closing, run_peek_bind_of_rest within hs, ← offset_of_rest hs]
    dsimp only
    split
    · rw [run_bind_of_ok (run_advance within hs)]
      rfl
    · exact run_failHere within _

theorem run_dottedName (name : String) (within : s.Within list) (enough : s.left < n) :
    (dottedName list n name).run (list.head s) =
      match Expr.dottedName name s.rest with
      | .error rest => some (.error ⟨.expectedProperty (s.goto rest).peek, (s.goto rest).offset⟩,
          list.head (s.goto rest))
      | .ok (path, rest) => some (.ok path, list.head (s.goto rest)) := by
  generalize tokens_eq : s.rest = tokens
  fun_induction Expr.dottedName name tokens generalizing s n with
  | case1 name dot w offset rest ih =>
    obtain ⟨n, rfl⟩ := Nat.exists_eq_add_one_of_ne_zero (Nat.ne_zero_of_lt enough)
    have past : (s.goto (⟨.word w, offset⟩ :: rest)).Within list :=
      within.goto (tokens_eq ▸ List.suffix_cons _ _)
    have further : (s.goto rest).Within list := past.goto (List.suffix_cons _ _)
    have fewer : s.left = rest.length + 2 := congrArg List.length tokens_eq
    rw [dottedName, run_peek_bind_of_rest within tokens_eq, if_pos rfl,
      run_bind_of_ok (run_advance within tokens_eq), run_peek_bind_of_rest past rfl]
    dsimp only
    rw [run_bind_of_ok (run_advance past rfl)]
    exact ih further (by rw [left_goto]; omega) rfl
  | case2 name dot rest unfinished =>
    obtain ⟨n, rfl⟩ := Nat.exists_eq_add_one_of_ne_zero (Nat.ne_zero_of_lt enough)
    have past : (s.goto rest).Within list := within.goto (tokens_eq ▸ List.suffix_cons _ _)
    rw [dottedName, run_peek_bind_of_rest within tokens_eq, if_pos rfl,
      run_bind_of_ok (run_advance within tokens_eq), run_bind_of_ok (run_peek past)]
    split
    · next w word =>
      obtain ⟨⟨_, offset⟩, rest', rfl, rfl⟩ := exists_of_peek word
      exact absurd rfl (unfinished w offset rest')
    · exact run_failHere past _
  | case3 name tokens undotted unfinished =>
    obtain ⟨n, rfl⟩ := Nat.exists_eq_add_one_of_ne_zero (Nat.ne_zero_of_lt enough)
    have ends : s.peek ≠ some .dot := by
      intro dot
      obtain ⟨⟨_, offset⟩, rest, hs, rfl⟩ := exists_of_peek dot
      exact unfinished offset rest (tokens_eq.symm.trans hs)
    rw [dottedName, run_bind_of_ok (run_peek within), if_neg ends, ← tokens_eq]
    rfl

theorem run_variableFrom (word : String) (offset : Nat) (within : s.Within list)
    (moved : s.left < bound) (enough : s.left < n) :
    (variableFrom list n word offset).run (list.head s) =
      (Expr.parseVariable word offset s moved).told list := by
  have named := run_dottedName word within enough
  unfold Expr.parseVariable
  split
  · next rest failed =>
    rw [failed] at named
    rw [variableFrom, run_bind_of_error named]
    rfl
  · next name rest read =>
    rw [read] at named
    obtain ⟨-, before, split, -⟩ := Expr.dottedName_sound read
    have taken : (s.goto rest).Within list := within.goto ⟨before, split.symm⟩
    rw [variableFrom, run_bind_of_ok named, run_bind_of_ok (run_peek taken)]
    dsimp only
    split
    · exact run_failHere taken _
    · rfl

end Attempt

end FormRules
