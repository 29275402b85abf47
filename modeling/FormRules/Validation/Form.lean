import FormRules.Artifact.Basic
import FormRules.Scope.Build
import FormRules.Validation.Logic
import FormRules.Validation.Options

/-!
# Checking forms

Fieldsets are entered down to the same depth by all walks: where fields are passed over, an issue
says so.
-/

namespace FormRules.Report

mutual

/-- Reports the fieldsets within a field that are nested too deeply, given the path of the field and
how many more fieldsets may be entered. -/
def checkDepth (maxDepth room : Nat) (path : IssuePath) : Field → Report → Report
  | ⟨.fieldset, _, _, _, _, fields⟩, r =>
    match room with
    | 0 => r.find (.nestingTooDeep maxDepth) path
    | room + 1 => checkDepthAll maxDepth room (path ++ [.key "fields"]) fields r
  | _, r => r

def checkDepthAll (maxDepth room : Nat) (path : IssuePath) :
    List (String × Field) → Report → Report
  | [], r => r
  | (id, field) :: rest, r =>
    checkDepthAll maxDepth room path rest (checkDepth maxDepth room (path ++ [.key id]) field r)

end

mutual

def checkField (env : Environment) (room : Nat) (path : IssuePath) : Field → Report → Report
  | ⟨type, _, _, required, visible, fields⟩, r =>
    let r := r.checkCondition env (path ++ [.key "required"]) required
    let r := r.checkCondition env (path ++ [.key "visible"]) visible
    match type, room with
    | .fieldset, room + 1 => checkFields env room (path ++ [.key "fields"]) fields r
    | _, _ => r

def checkFields (env : Environment) (room : Nat) (path : IssuePath) :
    List (String × Field) → Report → Report
  | [], r => r
  | (id, field) :: rest, r =>
    if r.isDone then r
    else checkFields env room path rest (checkField env room (path ++ [.key id]) field r)

end

def checkAnnex (env : Environment) (path : IssuePath) (annex : Annex) (r : Report) : Report :=
  (r.checkCondition env (path ++ [.key "required"]) annex.required).checkCondition env
    (path ++ [.key "visible"]) annex.visible

def checkAnnexes (env : Environment) (base : IssuePath) (place : Nat) :
    List Annex → Report → Report
  | [], r => r
  | annex :: rest, r =>
    checkAnnexes env base (place + 1) rest
      (r.checkAnnex env (base ++ [.key "annexes", .index place]) annex)

def checkForm (maxDepth : Nat) (base : IssuePath) (form : Form) (r : Report) : Report :=
  let path := base ++ [.key "fields"]
  let r := checkDepthAll maxDepth maxDepth path form.fields.entries r
  let env := Environment.build form.fields form.logic maxDepth
  let r := r.checkLogic env (LogicSection.order form.logic) form.logic base
  let r := checkFields env maxDepth path form.fields.entries r
  checkAnnexes env base 0 form.annexes r

end FormRules.Report
