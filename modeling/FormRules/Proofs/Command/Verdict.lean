import FormRules.Command.Run
import FormRules.Proofs.Validation.Artifact

/-!
# The verdict of a check

What a check finds out is a matter of its files alone: whether they can be read, and whether the
artifact has an issue. How the result is shown, and whether the check goes on after the first issue,
decides what is written but not the code with which it ends.
-/

namespace FormRules.Command

variable {files : Files} {config : Option String}

/-- The options that a configuration gives, if it can be read. -/
def configured? (files : Files) : Option String → Option Options
  | none => some {}
  | some file =>
    match files file with
    | .ok text => Options.ofConfig? text
    | .error _ => none

/-- The artifact in a file, if there is one that can be read. -/
def artifact? (files : Files) (file : String) : Option Artifact :=
  match files file with
  | .ok text => (Json.read? text).bind fun value ↦ (Artifact.ofJson value).toOption
  | .error _ => none

/-- Two if something cannot be read, one if the artifact has issues, and zero if it has none. -/
def verdict (files : Files) (artifact : String) (config : Option String) : Nat :=
  match configured? files config, artifact? files artifact with
  | some options, some artifact =>
    if (artifact.validate { options with collectAllErrors := true }).isEmpty then 0 else 1
  | _, _ => 2

theorem verdict_unconfigured (artifact : String) (h : configured? files config = none) :
    verdict files artifact config = 2 := by
  rw [verdict, h]

theorem verdict_unread {artifact : String} (h : artifact? files artifact = none) :
    verdict files artifact config = 2 := by
  rw [verdict, h]
  cases configured? files config <;> rfl

/-- The verdict on an artifact that can be read does not depend on how it is validated. -/
theorem verdict_of_validate {file : String} {given options : Options} {artifact : Artifact}
    (configured : configured? files config = some given)
    (read : artifact? files file = some artifact) (depth : options.maxDepth = given.maxDepth) :
    verdict files file config = if (artifact.validate options).isEmpty then 0 else 1 := by
  have same : (artifact.validate { given with collectAllErrors := true }).isEmpty =
      (artifact.validate options).isEmpty := by
    rw [Bool.eq_iff_iff, List.isEmpty_iff, List.isEmpty_iff, Artifact.validate_eq_nil_iff,
      Artifact.validate_eq_nil_iff, depth]
  rw [verdict, configured, read]
  dsimp only
  rw [same]

/-! ## Reading -/

theorem loadOptions_cases (files : Files) (config : Option String) (firstError : Bool) :
    (∃ failure, loadOptions files config firstError = .error failure ∧ failure.exitCode = 2 ∧
      configured? files config = none) ∨
    ∃ given options, loadOptions files config firstError = .ok options ∧
      configured? files config = some given ∧ options.maxDepth = given.maxDepth := by
  have chosen : ∀ given : Options,
      (if firstError then { given with collectAllErrors := false } else given).maxDepth =
        given.maxDepth := fun given ↦ by
    split <;> rfl
  cases config with
  | none => exact .inr ⟨{}, _, rfl, rfl, chosen {}⟩
  | some file =>
    simp only [loadOptions, configured?]
    cases files file with
    | error fault => exact .inl ⟨_, rfl, rfl, rfl⟩
    | ok text =>
      dsimp only
      cases Options.ofConfig? text with
      | none => exact .inl ⟨_, rfl, rfl, rfl⟩
      | some given => exact .inr ⟨given, _, rfl, rfl, chosen given⟩

theorem loadJson_cases (files : Files) (file : String) :
    (∃ failure, loadJson files file = .error failure ∧ failure.exitCode = 2 ∧
      artifact? files file = none) ∨
    ∃ value, loadJson files file = .ok value ∧
      artifact? files file = (Artifact.ofJson value).toOption := by
  rw [loadJson, artifact?]
  cases files file with
  | error fault => exact .inl ⟨_, rfl, rfl, rfl⟩
  | ok text =>
    dsimp only
    cases Json.read? text with
    | none => exact .inl ⟨_, rfl, rfl, rfl⟩
    | some value => exact .inr ⟨value, rfl, rfl⟩

/-- Finding the issues fails if something cannot be read, and otherwise there is at least one of
them exactly if that is the verdict. -/
theorem findIssues_cases (files : Files) (file : String) (config : Option String)
    (firstError : Bool) :
    (∃ failure, findIssues files file config firstError = .error failure ∧
      failure.exitCode = verdict files file config) ∨
    ∃ issues, findIssues files file config firstError = .ok issues ∧
      verdict files file config = if issues.isEmpty then 0 else 1 := by
  rcases loadOptions_cases files config firstError with
    ⟨failure, load, exits, none⟩ | ⟨given, options, load, configured, depth⟩
  · rw [findIssues, load, verdict_unconfigured file none]
    exact .inl ⟨failure, rfl, exits⟩
  · rcases loadJson_cases files file with ⟨failure, json, exits, none⟩ | ⟨value, json, read⟩
    · rw [findIssues, load, json, verdict_unread none]
      exact .inl ⟨failure, rfl, exits⟩
    · have found : findIssues files file config firstError =
          (value.validate options).mapError (.noArtifact file) := by
        simp only [findIssues, load, json, bind, Except.bind]
        cases value.validate options <;> rfl
      rw [found, Json.validate]
      cases decoded : Artifact.ofJson value with
      | error fault =>
        rw [decoded] at read
        exact .inl ⟨_, rfl, (verdict_unread read).symm⟩
      | ok artifact =>
        rw [decoded] at read
        exact .inr ⟨_, rfl, verdict_of_validate configured read depth⟩

/-! ## Showing -/

theorem exitCode_reportIssues (format : Format) (quiet : Bool) (issues : List Issue) :
    (reportIssues format quiet issues).exitCode = if issues.isEmpty then 0 else 1 := by
  unfold reportIssues
  split <;> rfl

theorem silent_reportIssues (format : Format) (issues : List Issue) :
    (reportIssues format true issues).stdout = "" ∧
      (reportIssues format true issues).stderr = "" := by
  unfold reportIssues
  split <;> exact ⟨rfl, rfl⟩

/-- A check ends with the verdict on its files however its result is asked for, and a quiet one
writes nothing. -/
theorem check_ends_with_verdict (files : Files) (artifact : String) (config : Option String)
    (format : Format) (quiet firstError : Bool) :
    let outcome := (Request.run ⟨format, quiet, .check artifact config firstError⟩).outcome files
    outcome.exitCode = verdict files artifact config ∧
      (quiet = true → outcome.stdout = "" ∧ outcome.stderr = "") := by
  intro outcome
  rcases findIssues_cases files artifact config firstError with
    ⟨failure, found, exits⟩ | ⟨issues, found, exits⟩
  · have failed : outcome = .failure format quiet failure := by
      simp only [outcome, Request.outcome, Invocation.run, found]
    rw [failed]
    refine ⟨exits, ?_⟩
    rintro rfl
    exact ⟨rfl, rfl⟩
  · have reported : outcome = reportIssues format quiet issues := by
      simp only [outcome, Request.outcome, Invocation.run, found]
    rw [reported, exits]
    refine ⟨exitCode_reportIssues format quiet issues, ?_⟩
    rintro rfl
    exact silent_reportIssues format issues

/-- A fieldset in a fieldset is an issue only under the configuration, which is read although the
check is quiet and stops at the first issue. -/
theorem check_ends_with_verdict_quietly :
    let inner : Json := .object [("b", .object [("type", .text "fieldset")])]
    let outer : Json := .object [("type", .text "fieldset"), ("fields", inner)]
    let form : Json := .object [("kind", .text "form"), ("fields", .object [("a", outer)])]
    let files : Files := fun file ↦
      if file = "flat.toml" then .ok "[validate]\nmax_depth = 1\n" else .ok form.compact
    let request := Request.run ⟨.json, true, .check "form.json" (some "flat.toml") true⟩
    let outcome := request.outcome files
    verdict files "form.json" none = 0 ∧ outcome.exitCode = 1 ∧
      outcome.stdout = "" ∧ outcome.stderr = "" := by
  intro inner outer form files request outcome
  have law := check_ends_with_verdict files "form.json" (some "flat.toml") .json true true
  have found : verdict files "form.json" (some "flat.toml") = 1 := by decide +kernel
  exact ⟨by decide +kernel, law.1.trans found, law.2 rfl⟩

end FormRules.Command
