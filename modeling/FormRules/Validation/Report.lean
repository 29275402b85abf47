import FormRules.Validation.Issue

/-!
# Reports

The issues that have been found so far. A report that is to hold only the first issue is done as
soon as it has one, and takes no more.
-/

namespace FormRules

structure Report where
  /-- Whether all issues are wanted or only the first. -/
  collectAll : Bool
  issues : List Issue
deriving DecidableEq, Repr

namespace Report

def empty (collectAll : Bool) : Report := ⟨collectAll, []⟩

def isDone (r : Report) : Bool := !r.collectAll && !r.issues.isEmpty

def push (r : Report) (issue : Issue) : Report :=
  if r.isDone then r else { r with issues := r.issues ++ [issue] }

def find (r : Report) (finding : Finding) (path : IssuePath) (expression : Option String := none) :
    Report :=
  r.push (.ofFinding finding path expression)

end Report

end FormRules
