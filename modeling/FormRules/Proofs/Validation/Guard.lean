import FormRules.Proofs.Validation.Walks
import FormRules.Proofs.Validation.WellFormed

/-!
# The depth is a guard

How many fieldsets may be nested has no effect on what is found, except that a form which is nested
too deeply is reported before anything else in it. So validation with a smaller depth finds the same
as validation with a larger one, at least up to the first report of that kind.
-/

namespace FormRules

variable {base : IssuePath} {maxDepth more : Nat}

namespace Issue

/-- Two lists of issues are the same, or they are the same up to a place at which the first one says
that something is nested too deeply. -/
inductive AgreeUntilDeep : List Issue → List Issue → Prop
  | same (issues : List Issue) : AgreeUntilDeep issues issues
  | deep (before rest rest' : List Issue) {issue : Issue} : issue.code = .nestingTooDeep →
    AgreeUntilDeep (before ++ issue :: rest) (before ++ rest')

namespace AgreeUntilDeep

variable {issues issues' further further' : List Issue}

theorem append (h : AgreeUntilDeep issues issues') (h' : AgreeUntilDeep further further') :
    AgreeUntilDeep (issues ++ further) (issues' ++ further') := by
  cases h with
  | same =>
    cases h' with
    | same => exact same _
    | deep before rest rest' code =>
      rw [← List.append_assoc, ← List.append_assoc]
      exact deep _ _ _ code
  | deep before rest rest' code =>
    rw [List.append_assoc, List.append_assoc, List.cons_append]
    exact deep _ _ _ code

theorem eq (h : AgreeUntilDeep issues issues')
    (shallow : ∀ issue ∈ issues, issue.code ≠ .nestingTooDeep) : issues' = issues := by
  cases h with
  | same => rfl
  | deep before rest rest' code => exact absurd code (shallow _ (by simp))

theorem take_one (h : AgreeUntilDeep issues issues')
    (shallow : ∀ issue ∈ issues.take 1, issue.code ≠ .nestingTooDeep) :
    issues'.take 1 = issues.take 1 := by
  cases h with
  | same => rfl
  | deep before rest rest' code =>
    cases before with
    | nil => exact absurd code (shallow _ (by simp))
    | cons first before => rfl

end AgreeUntilDeep

end Issue

/-! ## Forms -/

namespace Field

variable {entries : List (String × Field)}

/-- No fieldset stands below exactly so many others. -/
def Shallow (maxDepth : Nat) (entries : List (String × Field)) : Prop :=
  ∀ outer id field, Reached entries outer id field → outer.length = maxDepth →
    field.type ≠ .fieldset

theorem Shallow.length_le (shallow : Shallow maxDepth entries) {outer : List String} {id : String}
    {field : Field} (reached : Reached entries outer id field) : outer.length ≤ maxDepth := by
  by_contra far
  obtain ⟨before, group, -, fieldset, -, full, above, enters⟩ :=
    reached.exists_above (Nat.lt_of_not_le far)
  exact shallow before group fieldset above full enters

theorem Shallow.mono (shallow : Shallow maxDepth entries) (le : maxDepth ≤ more) :
    Shallow more entries := by
  intro outer id field reached full
  have near := shallow.length_le reached
  exact shallow outer id field reached (by omega)

/-- A walk comes to all fields if no fieldset is nested too deeply for it. -/
theorem Shallow.entered_eq (shallow : Shallow maxDepth entries) :
    entered maxDepth entries = occurrencesAll entries := by
  rw [entered, List.filter_eq_self]
  intro o member
  exact decide_eq_true (shallow.length_le (mem_occurrencesAll_iff.mp member))

end Field

theorem Environment.build_eq_of_entered_eq {fields : Fields}
    (h : Field.entered more fields.entries = Field.entered maxDepth fields.entries)
    (logic : LogicSection) : build fields logic more = build fields logic maxDepth := by
  have paths : fields.types fieldRoot more = fields.types fieldRoot maxDepth := by
    rw [Fields.types, Fields.types, Field.exposedAll_eq_flatMap_entered,
      Field.exposedAll_eq_flatMap_entered, h]
  rw [build, build, ofFields, ofFields, paths]

namespace Issue

variable {form : Form}

theorem ofForm_eq_of_shallow (shallow : Field.Shallow maxDepth form.fields.entries)
    (le : maxDepth ≤ more) : ofForm more base form = ofForm maxDepth base form := by
  have deeper := shallow.mono le
  have walks := deeper.entered_eq.trans shallow.entered_eq.symm
  have environment := Environment.build_eq_of_entered_eq walks form.logic
  rw [ofForm, ofForm, environment, ofDepth_eq_nil_iff.mpr shallow, ofDepth_eq_nil_iff.mpr deeper]
  simp only [Field.visitsAll_eq_map_entered, List.flatMap_map, ofField_visit, walks]

/-- A form that is nested too deeply is reported first. -/
theorem exists_ofForm_eq_cons (base : IssuePath)
    (deep : ¬Field.Shallow maxDepth form.fields.entries) :
    ∃ issue rest, issue.code = .nestingTooDeep ∧ ofForm maxDepth base form = issue :: rest := by
  have some_reported : (Field.visitsAll maxDepth (base ++ [.key "fields"])
      form.fields.entries).flatMap (ofDepth maxDepth) ≠ [] := mt ofDepth_eq_nil_iff.mp deep
  obtain ⟨issue, rest, reports⟩ := List.exists_cons_of_ne_nil some_reported
  have reported : issue ∈ issue :: rest := List.mem_cons_self
  rw [← reports] at reported
  obtain ⟨visit, -, found⟩ := List.mem_flatMap.mp reported
  rw [ofForm, reports]
  exact ⟨issue, _, (of_mem_ofDepth found).2, rfl⟩

theorem agreeUntilDeep_ofForm (le : maxDepth ≤ more) (base : IssuePath) (form : Form) :
    AgreeUntilDeep (ofForm maxDepth base form) (ofForm more base form) := by
  by_cases shallow : Field.Shallow maxDepth form.fields.entries
  · rw [ofForm_eq_of_shallow shallow le]
    exact .same _
  · obtain ⟨issue, rest, code, first⟩ := exists_ofForm_eq_cons base shallow
    rw [first]
    exact .deep [] rest _ code

/-! ## Artifacts -/

mutual

theorem agreeUntilDeep_ofArtifact (le : maxDepth ≤ more) : ∀ (base : IssuePath)
    (artifact : Artifact),
    AgreeUntilDeep (ofArtifact maxDepth base artifact) (ofArtifact more base artifact)
  | base, .form form => by
    rw [ofArtifact, ofArtifact]
    exact agreeUntilDeep_ofForm le base form
  | base, .bundle _ _ logic contents => by
    rw [ofArtifact, ofArtifact]
    -- The environment of a bundle has no fields, so it is the same for all depths.
    exact .append (.same _) (agreeUntilDeep_ofItems le _ base 0 contents)
  | base, .document _ | base, .checklist _ => by
    rw [ofArtifact, ofArtifact]
    exact .same _

theorem agreeUntilDeep_ofItem (le : maxDepth ≤ more) (env : Environment) : ∀ (path : IssuePath)
    (item : Item), AgreeUntilDeep (ofItem maxDepth env path item) (ofItem more env path item)
  | path, .inline _ _ artifact => by
    rw [ofItem, ofItem]
    exact .append (.same _) (agreeUntilDeep_ofArtifact le _ artifact)
  | path, .path .. | path, .registry .. => by
    rw [ofItem, ofItem]
    exact .same _

theorem agreeUntilDeep_ofItems (le : maxDepth ≤ more) (env : Environment) : ∀ (base : IssuePath)
    (place : Nat) (items : List Item),
    AgreeUntilDeep (ofItems maxDepth env base place items) (ofItems more env base place items)
  | base, place, [] => by
    rw [ofItems, ofItems]
    exact .same _
  | base, place, item :: rest => by
    rw [ofItems, ofItems]
    exact .append (agreeUntilDeep_ofItem le env _ item)
      (agreeUntilDeep_ofItems le env base (place + 1) rest)

end

end Issue

/-- If validation does not report that anything is nested too deeply, then to allow deeper nesting
changes nothing: the issues stay the same, also if only the first is asked for and some form that is
nested too deeply has not been looked at. -/
theorem Artifact.depth_guards (artifact : Artifact) (collectAllErrors : Bool) (maxDepth more : Nat)
    (le : maxDepth ≤ more) (shallow : ∀ issue ∈ artifact.validate ⟨collectAllErrors, maxDepth⟩,
      issue.code ≠ .nestingTooDeep) :
    artifact.validate ⟨collectAllErrors, more⟩ =
      artifact.validate ⟨collectAllErrors, maxDepth⟩ := by
  have agree := Issue.agreeUntilDeep_ofArtifact le [] artifact
  cases collectAllErrors with
  | true =>
    rw [validate_eq_ofArtifact] at shallow ⊢
    rw [validate_eq_ofArtifact]
    exact agree.eq shallow
  | false =>
    rw [validate_first_eq] at shallow ⊢
    rw [validate_first_eq]
    exact agree.take_one shallow

/-- A form in which one fieldset stands in another, after an item with a condition that uses an
unknown name. One fieldset is not enough for the form, but validation that stops at the first issue
does not come to it. -/
theorem Artifact.depth_guards_before_deep :
    let group (fields : List (String × Field)) : Field :=
      ⟨.fieldset, none, none, none, none, fields⟩
    let leaf : Field := ⟨.number, none, none, some (.expression "1 + 1"), none, []⟩
    let form : Form := ⟨none, none,
      .ofEntries [("outer", group [("inner", group [("leaf", leaf)])])], [], .empty⟩
    let artifact : Artifact := .bundle none none .empty
      [.path "first" (some (.expression "missing")) "first.json",
        .inline "second" none (.form form)]
    (artifact.validate ⟨true, 1⟩).map Issue.code = [.unknownVariable, .nestingTooDeep] ∧
    (artifact.validate ⟨true, 2⟩).map Issue.code = [.unknownVariable, .booleanContext] ∧
    artifact.validate ⟨false, 32⟩ = artifact.validate ⟨false, 1⟩ ∧
    artifact.validate ⟨true, 32⟩ = artifact.validate ⟨true, 2⟩ := by
  intro group leaf form artifact
  refine ⟨by decide +kernel, by decide +kernel, ?_, ?_⟩
  · exact artifact.depth_guards false 1 32 (by decide) (by decide +kernel)
  · exact artifact.depth_guards true 2 32 (by decide) (by decide +kernel)

end FormRules
