import FormRules.Expr.Cursor
import FormRules.Expr.Level
import FormRules.Text.Blank
import FormRules.Token.Scan

/-!
# Parsing

Operator precedence parsing by levels. A chain of operators of one level groups to the left, a
comparison takes no second comparison, and prefix operators stack. Two limits keep every later walk
over the tree shallow: one on open parentheses, argument lists and prefix operators, and one on the
height of the tree, which long chains reach without any nesting.
-/

namespace FormRules

/-- A tree together with its height, which is known while the tree grows. -/
structure Sized where
  expr : Expr
  height : Nat
deriving Repr, Inhabited

namespace Sized

def leaf (expr : Expr) : Sized := ⟨expr, 1⟩

def greatest : List Sized → Nat
  | [] => 0
  | node :: rest => max node.height (greatest rest)

end Sized

namespace Expr

/-- A new node above others, refused when it would be too tall. -/
def grow {bound : Nat} (expr : Expr) (height : Nat) (s : Cursor) (moved : s.left < bound) :
    Parsed bound Sized :=
  if height ≤ maxHeight then .ok ⟨expr, height⟩ s moved
  else .error ⟨.tooComplex, expr.offset⟩ s

/-- Takes the closing parenthesis of the one at offset `opening`. -/
def closing {bound : Nat} {α : Type} (opening : Nat) (value : α) (s : Cursor)
    (moved : s.left < bound) : Parsed bound α :=
  match h : s.rest with
  | [] => .error ⟨.unmatchedOpening, opening⟩ s
  | t :: rest =>
    if t.token = .rightParen then
      .ok value (s.goto rest) (Nat.lt_trans (Cursor.left_goto_lt h) moved)
    else .error ⟨.expectedClosing t.token, t.offset⟩ s

/-- Takes the dots and words that continue a name. Fails before what follows a dot and is not a
word. -/
def dottedName (name : String) : List PlacedToken →
    Except (List PlacedToken) (String × List PlacedToken)
  | ⟨.dot, _⟩ :: ⟨.word w, _⟩ :: rest => dottedName (name ++ "." ++ w) rest
  | ⟨.dot, _⟩ :: rest => .error rest
  | rest => .ok (name, rest)

theorem dottedName_length_le {name : String} {tokens rest : List PlacedToken} {path : String}
    (h : dottedName name tokens = .ok (path, rest)) : rest.length ≤ tokens.length := by
  fun_induction dottedName name tokens with
  | case1 name _ w _ rest' ih =>
    have := ih h
    simp only [List.length_cons]
    omega
  | case2 => cases h
  | case3 =>
    cases h
    exact Nat.le_refl _

/-- A variable whose first word has been taken. -/
def parseVariable {bound : Nat} (word : String) (offset : Nat) (s : Cursor)
    (moved : s.left < bound) : Parsed bound Sized :=
  match h : dottedName word s.rest with
  | .error rest =>
    let s := s.goto rest
    .error ⟨.expectedProperty s.peek, s.offset⟩ s
  | .ok (name, rest) =>
    let s' := s.goto rest
    if s'.peek = some .leftParen then .error ⟨.notCallable name, s'.offset⟩ s'
    else .ok (.leaf (.reference name offset)) s'
      (Nat.lt_of_le_of_lt (dottedName_length_le h) moved)

mutual

def parseAt (level : Level) (s : Cursor) : Parsed s.left Sized :=
  match _ : level.form with
  | .chain =>
    match parseAt level.tighter s with
    | .error fault s₁ => .error fault s₁
    | .ok first s₁ moved => parseChain level first s₁ moved
  | .prefixed =>
    match hs : s.rest with
    | [] => parseAt level.tighter s
    | t :: rest =>
      match level.unary? t.token with
      | none => parseAt level.tighter s
      | some op =>
        let s₁ := s.goto rest
        if s₁.depth < maxNesting then
          match (parseAt level s₁.enter).leave with
          | .error fault s₂ => .error fault s₂
          | .ok operand s₂ moved =>
            grow (.unary op operand.expr t.offset) (operand.height + 1) s₂
              (Nat.lt_trans moved (Cursor.left_goto_lt hs))
        else .error ⟨.nestedTooDeeply, s₁.offset⟩ s₁
  | .pair =>
    match parseAt level.tighter s with
    | .error fault s₁ => .error fault s₁
    | .ok left s₁ moved =>
      match hs : s₁.rest with
      | [] => .ok left s₁ moved
      | t :: rest =>
        match level.binary? t.token with
        | none => .ok left s₁ moved
        | some op =>
          match parseAt level.tighter (s₁.goto rest) with
          | .error fault s₂ => .error fault s₂
          | .ok right s₂ moved₂ =>
            if (s₂.peek.bind level.binary?).isSome then .error ⟨.chainedComparison, s₂.offset⟩ s₂
            else
              grow (.binary op left.expr right.expr t.offset) (max left.height right.height + 1)
                s₂ (Nat.lt_trans (Nat.lt_trans moved₂ (Cursor.left_goto_lt hs)) moved)
  | .operand => parseOperand s
termination_by 10 * s.left + (level.rank + 1)
decreasing_by
  · exact Nat.add_lt_add_left (Nat.succ_lt_succ (Level.rank_tighter_lt (by simp [*]))) _
  · omega
  · exact Nat.add_lt_add_left (Nat.succ_lt_succ (Level.rank_tighter_lt (by simp [*]))) _
  · exact Nat.add_lt_add_left (Nat.succ_lt_succ (Level.rank_tighter_lt (by simp [*]))) _
  · have := Cursor.left_goto_lt hs
    simp only [Cursor.left_enter]
    omega
  · exact Nat.add_lt_add_left (Nat.succ_lt_succ (Level.rank_tighter_lt (by simp [*]))) _
  · have := Cursor.left_goto_lt hs
    have := Level.rank_tighter_lt (show level.form ≠ .operand by simp [*])
    omega
  · omega

/-- Parses the operators and operands that continue a chain, given what stands to their left. -/
def parseChain {bound : Nat} (level : Level) (first : Sized) (s : Cursor)
    (moved : s.left < bound) : Parsed bound Sized :=
  match hs : s.rest with
  | [] => .ok first s moved
  | t :: rest =>
    match level.binary? t.token with
    | none => .ok first s moved
    | some op =>
      match parseAt level.tighter (s.goto rest) with
      | .error fault s₁ => .error fault s₁
      | .ok second s₁ moved₁ =>
        match grow (.binary op first.expr second.expr t.offset)
            (max first.height second.height + 1) s₁ moved₁ with
        | .error fault s₂ => .error fault s₂
        | .ok both s₂ moved₂ =>
          parseChain level both s₂
            (Nat.lt_trans (Nat.lt_trans moved₂ (Cursor.left_goto_lt hs)) moved)
termination_by 10 * s.left
decreasing_by
  · have := Cursor.left_goto_lt hs
    have := level.tighter.rank_le
    omega
  · have := Cursor.left_goto_lt hs
    omega

def parseOperand (s : Cursor) : Parsed s.left Sized :=
  match hs : s.rest with
  | [] => .error ⟨.expectedOperand none, s.stop⟩ s
  | t :: rest =>
    have moved : (s.goto rest).left < s.left := Cursor.left_goto_lt hs
    match t.token with
    | .number digits => .ok (.leaf (.literal (.number digits) t.offset)) (s.goto rest) moved
    | .text content => .ok (.leaf (.literal (.text content) t.offset)) (s.goto rest) moved
    | .word w =>
      if w = "true" || w = "false" then
        .ok (.leaf (.literal (.boolean (w = "true")) t.offset)) (s.goto rest) moved
      else if w ∈ reservedWords then .error ⟨.expectedOperand (some t.token), t.offset⟩ s
      else
        match hr : rest with
        | ⟨.leftParen, opening⟩ :: rest' =>
          let s₁ := s.goto rest'
          have moved₁ : s₁.left < s.left := Nat.lt_of_succ_lt moved
          if s₁.depth < maxNesting then
            match
              (if s₁.peek = some .rightParen then .ok [] s₁.enter moved₁
                else (parseArguments s₁.enter).widen (Nat.le_of_lt moved₁) :
                Parsed s.left (List Sized)).leave with
            | .error fault s₂ => .error fault s₂
            | .ok arguments s₂ moved₂ =>
              match closing opening arguments s₂ moved₂ with
              | .error fault s₃ => .error fault s₃
              | .ok arguments s₃ moved₃ =>
                grow (.call w (arguments.map Sized.expr) t.offset) (Sized.greatest arguments + 1)
                  s₃ moved₃
          else .error ⟨.nestedTooDeeply, s₁.offset⟩ s₁
        | _ => parseVariable w t.offset (s.goto rest) (by subst hr; exact moved)
    | .leftParen =>
      if (s.goto rest).depth < maxNesting then
        match (parseAt .or (s.goto rest).enter).leave with
        | .error fault s₂ => .error fault s₂
        | .ok inner s₂ moved₂ =>
          closing t.offset inner s₂ (Nat.lt_trans moved₂ moved)
      else .error ⟨.nestedTooDeeply, (s.goto rest).offset⟩ (s.goto rest)
    | _ => .error ⟨.expectedOperand (some t.token), t.offset⟩ s
termination_by 10 * s.left
decreasing_by
  · have : (s.goto rest').left < s.left := moved₁
    simp only [Cursor.left_enter]
    omega
  · simp only [Cursor.left_enter, Level.rank]
    omega

def parseArguments (s : Cursor) : Parsed s.left (List Sized) :=
  match parseAt .or s with
  | .error fault s₁ => .error fault s₁
  | .ok argument s₁ moved =>
    match hs : s₁.rest with
    | ⟨.comma, _⟩ :: rest =>
      let s₂ := s₁.goto rest
      if s₂.peek = some .rightParen then .error ⟨.expectedArgument, s₂.offset⟩ s₂
      else
        match parseArguments s₂ with
        | .error fault s₃ => .error fault s₃
        | .ok arguments s₃ moved₃ =>
          .ok (argument :: arguments) s₃
            (Nat.lt_trans (Nat.lt_trans moved₃ (Cursor.left_goto_lt hs)) moved)
    | _ => .ok [argument] s₁ moved
termination_by 10 * s.left + 9
decreasing_by
  · simp only [Level.rank]
    omega
  · have := Cursor.left_goto_lt hs
    omega

end

def ofTokens (list : TokenList) : Except SyntaxError Expr :=
  match parseAt .or (.start list) with
  | .error fault _ => .error fault
  | .ok node s _ =>
    match s.peek with
    | none => .ok node.expr
    | some .rightParen => .error ⟨.unmatchedClosing, s.offset⟩
    | some found => .error ⟨.trailing found, s.offset⟩

def parse (text : String) : Except SyntaxError Expr :=
  if text.toList.all Text.isBlank then .error ⟨.blank, 0⟩
  else Token.scan text.toList >>= ofTokens

end Expr

end FormRules
