import FormRules.Proofs.Validation.Found
import FormRules.Validation.Form

/-!
# The issues of forms

A walk over the fields of a form visits each field before those within it and enters fieldsets as
long as there is room. The check of the depth and the check of the conditions make the same walk: a
fieldset that is visited without any room left is reported and not entered.
-/

namespace FormRules

/-- A field on a walk: its path, and how many more fieldsets may be entered there. -/
structure Visit where
  room : Nat
  path : IssuePath
  field : Field

namespace Field

mutual

/-- The visits of a walk over a field and the fields within it. -/
def visits (room : Nat) (path : IssuePath) : Field → List Visit
  | ⟨type, label, description, required, visible, fields⟩ =>
    ⟨room, path, ⟨type, label, description, required, visible, fields⟩⟩ ::
      match type, room with
      | .fieldset, room + 1 => visitsAll room (path ++ [.key "fields"]) fields
      | _, _ => []

def visitsAll (room : Nat) (path : IssuePath) : List (String × Field) → List Visit
  | [] => []
  | (id, field) :: rest => field.visits room (path ++ [.key id]) ++ visitsAll room path rest

end

end Field

namespace Issue

def ofDepth (maxDepth : Nat) (visit : Visit) : List Issue :=
  if visit.field.type = .fieldset ∧ visit.room = 0 then
    [.ofFinding (.nestingTooDeep maxDepth) visit.path none]
  else []

/-- The issues of the two conditions that fields and annexes have. -/
def ofConditions (env : Environment) (path : IssuePath) (required visible : Option Condition) :
    List Issue :=
  ofCondition env (path ++ [.key "required"]) required ++
    ofCondition env (path ++ [.key "visible"]) visible

def ofField (env : Environment) (visit : Visit) : List Issue :=
  ofConditions env visit.path visit.field.required visit.field.visible

def ofAnnex (env : Environment) (base : IssuePath) (annex : Annex × Nat) : List Issue :=
  ofConditions env (base ++ [.key "annexes", .index annex.2]) annex.1.required annex.1.visible

def ofForm (maxDepth : Nat) (base : IssuePath) (form : Form) : List Issue :=
  let visits := Field.visitsAll maxDepth (base ++ [.key "fields"]) form.fields.entries
  let env := Environment.build form.fields form.logic maxDepth
  visits.flatMap (ofDepth maxDepth) ++
    ofLogic env (LogicSection.order form.logic) form.logic base ++
    visits.flatMap (ofField env) ++ form.annexes.zipIdx.flatMap (ofAnnex env base)

end Issue

namespace Report

variable {env : Environment}

mutual

theorem checkDepth_eq_pushAll (maxDepth room : Nat) (path : IssuePath) : ∀ (field : Field)
    (r : Report), r.checkDepth maxDepth room path field =
      r.pushAll ((field.visits room path).flatMap (Issue.ofDepth maxDepth))
  | ⟨type, label, description, required, visible, fields⟩, r => by
    have inner := fun room ↦ checkDepthAll_eq_pushAll maxDepth room (path ++ [.key "fields"]) fields
    unfold checkDepth Field.visits
    by_cases fieldset : type = .fieldset
    · cases fieldset
      cases room with
      | zero => simp [Issue.ofDepth, find_eq_pushAll]
      | succ room => simp [Issue.ofDepth, inner]
    · simp [Issue.ofDepth, fieldset]

theorem checkDepthAll_eq_pushAll (maxDepth room : Nat) (path : IssuePath) :
    ∀ (fields : List (String × Field)) (r : Report), r.checkDepthAll maxDepth room path fields =
      r.pushAll ((Field.visitsAll room path fields).flatMap (Issue.ofDepth maxDepth))
  | [], _ => rfl
  | (id, field) :: rest, r => by
    rw [checkDepthAll, checkDepth_eq_pushAll, checkDepthAll_eq_pushAll, Field.visitsAll,
      List.flatMap_append, pushAll_append]

end

theorem checkConditions_eq_pushAll (r : Report) (path : IssuePath)
    (required visible : Option Condition) :
    (r.checkCondition env (path ++ [.key "required"]) required).checkCondition env
        (path ++ [.key "visible"]) visible =
      r.pushAll (Issue.ofConditions env path required visible) := by
  rw [checkCondition_eq_pushAll, checkCondition_eq_pushAll, Issue.ofConditions, pushAll_append]

mutual

theorem checkField_eq_pushAll (room : Nat) (path : IssuePath) : ∀ (field : Field) (r : Report),
    checkField env room path field r =
      r.pushAll ((field.visits room path).flatMap (Issue.ofField env))
  | ⟨type, label, description, required, visible, fields⟩, r => by
    have inner := fun room ↦ checkFields_eq_pushAll room (path ++ [.key "fields"]) fields
    unfold checkField Field.visits
    dsimp only
    rw [checkConditions_eq_pushAll, List.flatMap_cons, pushAll_append, Issue.ofField]
    by_cases fieldset : type = .fieldset
    · cases fieldset
      cases room with
      | zero => rfl
      | succ room => exact inner room _
    · simp [fieldset]

theorem checkFields_eq_pushAll (room : Nat) (path : IssuePath) :
    ∀ (fields : List (String × Field)) (r : Report), checkFields env room path fields r =
      r.pushAll ((Field.visitsAll room path fields).flatMap (Issue.ofField env))
  | [], _ => rfl
  | (id, field) :: rest, r => by
    rw [checkFields, Field.visitsAll, List.flatMap_append]
    apply unlessDone_eq_pushAll
    rw [checkField_eq_pushAll, checkFields_eq_pushAll, pushAll_append]

end

theorem checkAnnexes_eq_pushAll (base : IssuePath) (place : Nat) (annexes : List Annex)
    (r : Report) : checkAnnexes env base place annexes r =
      r.pushAll ((annexes.zipIdx place).flatMap (Issue.ofAnnex env base)) := by
  induction annexes generalizing place r with
  | nil => rfl
  | cons annex rest ih =>
    rw [checkAnnexes, ih, checkAnnex, checkConditions_eq_pushAll, List.zipIdx_cons,
      List.flatMap_cons, pushAll_append]
    rfl

theorem checkForm_eq_pushAll (maxDepth : Nat) (base : IssuePath) (form : Form) (r : Report) :
    r.checkForm maxDepth base form = r.pushAll (Issue.ofForm maxDepth base form) := by
  unfold checkForm Issue.ofForm
  simp only [checkDepthAll_eq_pushAll, checkLogic_eq_pushAll, checkFields_eq_pushAll,
    checkAnnexes_eq_pushAll, pushAll_append]

end Report

end FormRules
