/-!
# Looking ahead

A reader that passes over some characters and takes the next one has less of the text left, which
is what its recursion rests on.
-/

namespace FormRules.Text

def require (condition : Bool) : Option Unit := if condition then some () else none

/-- A character of a text, what follows it, and how many characters the text has up to and with
it. -/
structure Ahead (text : List Char) where
  first : Char
  rest : List Char
  used : Nat
  shorter : rest.length < text.length

/-- Passes over characters and takes the next one, if there is one. -/
def ahead (skipped : Nat) (text : List Char) : Option (Ahead text) :=
  match h : text.drop skipped with
  | [] => none
  | c :: rest => some ⟨c, rest, skipped + 1, by
      have := congrArg List.length h
      simp only [List.length_drop, List.length_cons] at this
      omega⟩

end FormRules.Text
