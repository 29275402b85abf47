import FormRules.Proofs.Validation.Form
import FormRules.Validation.Artifact

/-!
# The issues of artifacts

An artifact has the issues of its own rules and conditions and those of the artifacts within it.
Validation returns all of them if all are asked for and the first of them otherwise, so it returns
none only if there is none.
-/

namespace FormRules

namespace Issue

mutual

def ofArtifact (maxDepth : Nat) (base : IssuePath) : Artifact → List Issue
  | .form form => ofForm maxDepth base form
  | .bundle _ _ logic contents =>
    let env := Environment.build .empty logic maxDepth
    ofLogic env (LogicSection.order logic) logic base ++ ofItems maxDepth env base 0 contents
  | .document _ | .checklist _ => []

def ofItem (maxDepth : Nat) (env : Environment) (path : IssuePath) : Item → List Issue
  | .inline _ condition artifact =>
    ofCondition env (path ++ [.key "include"]) condition ++
      ofArtifact maxDepth (path ++ [.key "artifact"]) artifact
  | .path _ condition _ | .registry _ condition _ =>
    ofCondition env (path ++ [.key "include"]) condition

/-- The issues of items, the first of which has the given place. -/
def ofItems (maxDepth : Nat) (env : Environment) (base : IssuePath) (place : Nat) :
    List Item → List Issue
  | [] => []
  | item :: rest =>
    ofItem maxDepth env (base ++ [.key "contents", .index place]) item ++
      ofItems maxDepth env base (place + 1) rest

end

end Issue

namespace Report

mutual

theorem checkArtifact_eq_pushAll (maxDepth : Nat) (base : IssuePath) : ∀ (artifact : Artifact)
    (r : Report), checkArtifact maxDepth base artifact r =
      r.pushAll (Issue.ofArtifact maxDepth base artifact)
  | .form form, r => by
    rw [checkArtifact, Issue.ofArtifact]
    exact checkForm_eq_pushAll maxDepth base form r
  | .bundle _ _ logic contents, r => by
    rw [checkArtifact, Issue.ofArtifact, checkLogic_eq_pushAll, checkItems_eq_pushAll,
      pushAll_append]
  | .document _, r => by
    rw [checkArtifact, Issue.ofArtifact, pushAll_nil]
  | .checklist _, r => by
    rw [checkArtifact, Issue.ofArtifact, pushAll_nil]

theorem checkItem_eq_pushAll (maxDepth : Nat) (env : Environment) (path : IssuePath) :
    ∀ (item : Item) (r : Report), checkItem maxDepth env path item r =
      r.pushAll (Issue.ofItem maxDepth env path item)
  | .inline _ condition artifact, r => by
    rw [checkItem, Issue.ofItem, checkCondition_eq_pushAll, checkArtifact_eq_pushAll,
      pushAll_append]
  | .path _ condition _, r => by
    rw [checkItem, Issue.ofItem, checkCondition_eq_pushAll]
  | .registry _ condition _, r => by
    rw [checkItem, Issue.ofItem, checkCondition_eq_pushAll]

theorem checkItems_eq_pushAll (maxDepth : Nat) (env : Environment) (base : IssuePath)
    (place : Nat) : ∀ (items : List Item) (r : Report),
      checkItems maxDepth env base place items r =
        r.pushAll (Issue.ofItems maxDepth env base place items)
  | [], r => by
    rw [checkItems, Issue.ofItems, pushAll_nil]
  | item :: rest, r => by
    rw [checkItems, Issue.ofItems]
    apply unlessDone_eq_pushAll
    rw [checkItem_eq_pushAll, checkItems_eq_pushAll, pushAll_append]

end

end Report

namespace Artifact

/-- Validation that goes on after the first issue returns all issues. -/
theorem validate_eq_ofArtifact (artifact : Artifact) (maxDepth : Nat) :
    artifact.validate ⟨true, maxDepth⟩ = Issue.ofArtifact maxDepth [] artifact := by
  rw [validate, Report.checkArtifact_eq_pushAll]
  exact Report.issues_pushAll rfl

/-- Either way of validation accepts exactly the artifacts without issues. -/
theorem validate_eq_nil_iff (artifact : Artifact) (options : Options) :
    artifact.validate options = [] ↔ Issue.ofArtifact options.maxDepth [] artifact = [] := by
  rw [validate, Report.checkArtifact_eq_pushAll]
  exact Report.issues_pushAll_empty_eq_nil_iff

/-- Validation that stops at the first issue returns the first of all issues, if there is one. -/
theorem validate_first_eq (artifact : Artifact) (maxDepth : Nat) :
    artifact.validate ⟨false, maxDepth⟩ = (Issue.ofArtifact maxDepth [] artifact).take 1 := by
  rw [validate, Report.checkArtifact_eq_pushAll]
  exact Report.issues_pushAll_first

/-- Either way of validation returns issues of the artifact only, in their order. -/
theorem validate_sublist (artifact : Artifact) (options : Options) :
    (artifact.validate options).Sublist (Issue.ofArtifact options.maxDepth [] artifact) := by
  obtain ⟨collectAllErrors, maxDepth⟩ := options
  cases collectAllErrors with
  | true => simp only [validate_eq_ofArtifact, List.Sublist.refl]
  | false =>
    rw [validate_first_eq]
    exact List.take_sublist 1 _

theorem mem_ofArtifact_of_mem_validate {artifact : Artifact} {options : Options} {issue : Issue}
    (h : issue ∈ artifact.validate options) :
    issue ∈ Issue.ofArtifact options.maxDepth [] artifact :=
  (artifact.validate_sublist options).mem h

/-- Validation that stops at the first issue leaves checks out at some places and not at others,
which makes no difference: it accepts what validation of all issues accepts, and otherwise returns
the first issue of that and no other. -/
theorem first_issue_exact (artifact : Artifact) (maxDepth : Nat) :
    (artifact.validate ⟨false, maxDepth⟩ = [] ↔ artifact.validate ⟨true, maxDepth⟩ = []) ∧
    artifact.validate ⟨false, maxDepth⟩ = (artifact.validate ⟨true, maxDepth⟩).take 1 := by
  rw [validate_eq_ofArtifact]
  exact ⟨artifact.validate_eq_nil_iff ⟨false, maxDepth⟩, artifact.validate_first_eq maxDepth⟩

end Artifact

end FormRules
