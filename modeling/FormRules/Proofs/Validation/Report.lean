import FormRules.Validation.Report

/-!
# Reports grow by lists of issues

A check finds a list of issues whatever has been found before it, and pushes them one after the
other. A report of all issues takes the whole list. One that is to hold only the first issue takes
nothing once it is done, so leaving a check out then makes no difference.
-/

namespace FormRules.Report

variable {r : Report} {issue : Issue} {issues more : List Issue}

/-- Pushes issues one after the other. -/
def pushAll (r : Report) (issues : List Issue) : Report := issues.foldl push r

@[simp] theorem pushAll_nil (r : Report) : r.pushAll [] = r := rfl

@[simp] theorem pushAll_cons (r : Report) (issue : Issue) (issues : List Issue) :
    r.pushAll (issue :: issues) = (r.push issue).pushAll issues := rfl

theorem pushAll_append (r : Report) (issues more : List Issue) :
    r.pushAll (issues ++ more) = (r.pushAll issues).pushAll more :=
  List.foldl_append

theorem find_eq_pushAll (r : Report) (finding : Finding) (path : IssuePath)
    (expression : Option String) :
    r.find finding path expression = r.pushAll [.ofFinding finding path expression] := rfl

theorem push_of_isDone (done : r.isDone = true) : r.push issue = r := if_pos done

theorem pushAll_of_isDone (done : r.isDone = true) : r.pushAll issues = r := by
  induction issues with
  | nil => rfl
  | cons issue rest ih => rw [pushAll_cons, push_of_isDone done, ih]

/-- A check that is left out once the report is done finds what it would find anyway. -/
theorem unlessDone_eq_pushAll {s : Report} (h : s = r.pushAll issues) :
    (if r.isDone then r else s) = r.pushAll issues := by
  by_cases done : r.isDone = true
  · rw [if_pos done, pushAll_of_isDone done]
  · rw [if_neg done, h]

/-- A check of each item in turn finds the issues of the items in turn. -/
theorem foldl_eq_pushAll {α : Type} {check : Report → α → Report} {found : α → List Issue}
    {items : List α} (h : ∀ r item, check r item = r.pushAll (found item)) (r : Report) :
    items.foldl check r = r.pushAll (items.flatMap found) := by
  induction items generalizing r with
  | nil => rfl
  | cons item rest ih => rw [List.foldl_cons, h, ih, List.flatMap_cons, pushAll_append]

theorem isDone_eq_false (all : r.collectAll = true) : r.isDone = false := by
  simp [isDone, all]

theorem push_of_collectAll (all : r.collectAll = true) :
    r.push issue = { r with issues := r.issues ++ [issue] } := by
  have open_report : ¬r.isDone = true := by simp [isDone_eq_false all]
  exact if_neg open_report

/-- A report of all issues takes every one of them. -/
theorem issues_pushAll (all : r.collectAll = true) :
    (r.pushAll issues).issues = r.issues ++ issues := by
  induction issues generalizing r with
  | nil => simp
  | cons issue rest ih =>
    have still : (r.push issue).collectAll = true := by simp [push_of_collectAll all, all]
    rw [pushAll_cons, ih still, push_of_collectAll all]
    simp

theorem mem_issues_pushAll {found : Issue} (h : found ∈ (r.pushAll issues).issues) :
    found ∈ r.issues ∨ found ∈ issues := by
  induction issues generalizing r with
  | nil => exact .inl h
  | cons issue rest ih =>
    rcases ih h with pushed | later
    · by_cases done : r.isDone = true
      · rw [push_of_isDone done] at pushed
        exact .inl pushed
      · have grown : (r.push issue).issues = r.issues ++ [issue] := by rw [push, if_neg done]
        rw [grown, List.mem_append, List.mem_singleton] at pushed
        rcases pushed with earlier | rfl
        · exact .inl earlier
        · exact .inr List.mem_cons_self
    · exact .inr (List.mem_cons_of_mem _ later)

theorem issues_push_ne_nil (r : Report) (issue : Issue) : (r.push issue).issues ≠ [] := by
  intro nothing
  unfold push at nothing
  split at nothing
  · next done => simp [isDone, nothing] at done
  · simp at nothing

theorem issues_pushAll_ne_nil (h : r.issues ≠ []) : (r.pushAll issues).issues ≠ [] := by
  induction issues generalizing r with
  | nil => exact h
  | cons issue rest ih => exact ih (issues_push_ne_nil r issue)

/-- A fresh report stays empty exactly if there is no issue, however many it is to hold. -/
theorem issues_pushAll_empty_eq_nil_iff {collectAll : Bool} :
    ((empty collectAll).pushAll issues).issues = [] ↔ issues = [] := by
  constructor
  · intro nothing
    cases issues with
    | nil => rfl
    | cons issue rest =>
      rw [pushAll_cons] at nothing
      exact absurd nothing (issues_pushAll_ne_nil (issues_push_ne_nil _ issue))
  · rintro rfl
    rfl

theorem eq_empty_or_isDone (first : r.collectAll = false) : r = empty false ∨ r.isDone = true := by
  obtain ⟨collectAll, issues⟩ := r
  subst first
  cases issues with
  | nil => exact .inl rfl
  | cons issue rest => exact .inr rfl

/-- A report of the first issue takes no more than that one. -/
theorem issues_pushAll_first : ((empty false).pushAll issues).issues = issues.take 1 := by
  cases issues with
  | nil => rfl
  | cons issue rest =>
    have done : ((empty false).push issue).isDone = true := rfl
    rw [pushAll_cons, pushAll_of_isDone done]
    rfl

end FormRules.Report
