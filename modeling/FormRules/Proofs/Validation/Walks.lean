import FormRules.Proofs.Validation.Visited

/-!
# The walks over fields agree

The walk that reports fieldsets, the one that checks conditions and the one that collects the paths
of values come to the same fields: those which stand in no more fieldsets than may be entered. A
fieldset is reported exactly where the walks do not go on, so what they pass over lies below a
fieldset that is reported.
-/

namespace FormRules

variable {env : Environment} {path base : IssuePath} {maxDepth : Nat} {issue : Issue}

theorem Occurrence.place_injective {entries : List (String × Field)} {o o' : Occurrence}
    (distinct : Field.DistinctEntries entries) (member : o ∈ Field.occurrencesAll entries)
    (member' : o' ∈ Field.occurrencesAll entries) (h : o.place path = o'.place path) : o = o' := by
  obtain ⟨outer, id, field⟩ := o
  obtain ⟨outer', id', field'⟩ := o'
  obtain ⟨rfl, rfl⟩ := Field.place_injective h
  rw [Field.mem_occurrencesAll_iff] at member member'
  cases member.unique distinct member'
  rfl

/-! ## Where issues stand -/

namespace Issue

theorem forall_mem_ofExpression {P : Issue → Prop} {text : String} {ofType : Inference → List Issue}
    (syntaxError : ∀ error, P (ofFinding (.syntaxError error) path text))
    (unknownVariable : ∀ name, P (ofFinding (.unknownVariable name) path text))
    (type : ∀ found, ∀ issue ∈ ofType found, P issue) :
    ∀ issue ∈ ofExpression env path text ofType, P issue := by
  intro issue found
  unfold ofExpression at found
  cases parsed : Expr.parse text with
  | error fault =>
    rw [parsed] at found
    cases List.mem_singleton.mp found
    apply syntaxError
  | ok e =>
    rw [parsed] at found
    rcases List.mem_append.mp found with found | found
    · obtain ⟨name, -, rfl⟩ := List.mem_map.mp found
      apply unknownVariable
    · exact type _ issue found

theorem of_mem_ofCondition {condition : Option Condition}
    (found : issue ∈ ofCondition env path condition) :
    issue.path = path ∧ issue.code ≠ .nestingTooDeep := by
  match condition with
  | none | some (.literal _) => cases found
  | some (.expression text) =>
    apply forall_mem_ofExpression
      (P := fun issue ↦ issue.path = path ∧ issue.code ≠ .nestingTooDeep) _ _ _ issue found
    · exact fun error ↦ ⟨rfl, nofun⟩
    · exact fun name ↦ ⟨rfl, nofun⟩
    · intro type issue found
      obtain ⟨-, found⟩ := List.mem_ite_nil_right.mp found
      cases List.mem_singleton.mp found
      exact ⟨rfl, nofun⟩

theorem code_ne_of_mem_ofConditions {required visible : Option Condition}
    (found : issue ∈ ofConditions env path required visible) : issue.code ≠ .nestingTooDeep := by
  rcases List.mem_append.mp found with found | found
  · exact (of_mem_ofCondition found).2
  · exact (of_mem_ofCondition found).2

theorem code_ne_of_mem_ofLeaf {entry : LogicEntry} {cyclic : Bool} {property : Option String}
    {text : String} (found : issue ∈ ofLeaf env entry cyclic path property text) :
    issue.code ≠ .nestingTooDeep := by
  rcases List.mem_append.mp found with found | found
  · cases property with
    | none => cases found
    | some name =>
      obtain ⟨-, found⟩ := List.mem_ite_nil_left.mp found
      cases List.mem_singleton.mp found
      exact nofun
  · apply forall_mem_ofExpression (P := fun issue ↦ issue.code ≠ .nestingTooDeep) _ _ _ issue found
    · exact fun error ↦ nofun
    · exact fun name ↦ nofun
    · intro type issue found
      obtain ⟨-, found⟩ := List.mem_ite_nil_left.mp found
      obtain ⟨-, found⟩ := List.mem_ite_nil_right.mp found
      cases List.mem_singleton.mp found
      exact nofun

theorem code_ne_of_mem_ofEntry {entry : LogicEntry} {cyclic : Bool}
    (found : issue ∈ ofEntry env entry cyclic path) : issue.code ≠ .nestingTooDeep := by
  unfold ofEntry at found
  split at found
  · obtain ⟨-, found⟩ := List.mem_ite_nil_right.mp found
    cases List.mem_singleton.mp found
    exact nofun
  · obtain ⟨leaf, -, found⟩ := List.mem_flatMap.mp found
    exact code_ne_of_mem_ofLeaf found

theorem code_ne_of_mem_ofLogic {order : Order String} {logic : LogicSection}
    (found : issue ∈ ofLogic env order logic base) : issue.code ≠ .nestingTooDeep := by
  rcases List.mem_append.mp found with found | found
  · obtain ⟨key, -, rfl⟩ := List.mem_map.mp found
    exact nofun
  · obtain ⟨rule, -, found⟩ := List.mem_flatMap.mp found
    exact code_ne_of_mem_ofEntry found

theorem of_mem_ofDepth {visit : Visit} (found : issue ∈ ofDepth maxDepth visit) :
    issue.path = visit.path ∧ issue.code = .nestingTooDeep := by
  obtain ⟨-, found⟩ := List.mem_ite_nil_right.mp found
  cases List.mem_singleton.mp found
  exact ⟨rfl, rfl⟩

/-- Only the check of the depth says that something is nested too deeply. -/
theorem mem_ofForm_iff_of_deep {form : Form} (deep : issue.code = .nestingTooDeep) :
    issue ∈ ofForm maxDepth base form ↔ ∃ o ∈ Field.entered maxDepth form.fields.entries,
      issue ∈ ofDepth maxDepth (o.visit maxDepth (base ++ [.key "fields"])) := by
  simp only [ofForm, Field.visitsAll_eq_map_entered, List.flatMap_map, List.mem_append,
    List.mem_flatMap]
  constructor
  · rintro (((found | found) | ⟨o, -, found⟩) | ⟨annex, -, found⟩)
    · exact found
    · exact absurd deep (code_ne_of_mem_ofLogic found)
    · exact absurd deep (code_ne_of_mem_ofConditions found)
    · exact absurd deep (code_ne_of_mem_ofConditions found)
  · intro found
    exact .inl (.inl (.inl found))

end Issue

/-! ## Conditions -/

/-- The two conditions of a field, each with the key under which it is written. -/
def Field.conditions (field : Field) : List (String × Option Condition) :=
  [("required", field.required), ("visible", field.visible)]

/-- Checks the conditions of a field that stands below a path. -/
def Report.checkOccurrence (env : Environment) (path : IssuePath) (r : Report) (o : Occurrence) :
    Report :=
  o.field.conditions.foldl (fun r condition ↦
    r.checkCondition env (o.place path ++ [.key condition.1]) condition.2) r

theorem Field.conditions_injective {field : Field}
    {condition condition' : String × Option Condition} (has : condition ∈ field.conditions)
    (has' : condition' ∈ field.conditions) (same : condition.1 = condition'.1) :
    condition = condition' := by
  have distinct : (Keyed.keys field.conditions).Nodup := by simp [Field.conditions, Keyed.keys]
  have found := Keyed.get?_of_mem distinct has
  rw [same, Keyed.get?_of_mem distinct has'] at found
  exact Prod.ext same (Option.some.inj found).symm

namespace Issue

/-- The issues of the conditions of a field that stands below a path. -/
def ofOccurrence (env : Environment) (path : IssuePath) (o : Occurrence) : List Issue :=
  o.field.conditions.flatMap fun condition ↦
    ofCondition env (o.place path ++ [.key condition.1]) condition.2

theorem ofField_visit (env : Environment) (room : Nat) (path : IssuePath) (o : Occurrence) :
    ofField env (o.visit room path) = ofOccurrence env path o := by
  simp [ofField, ofConditions, ofOccurrence, Field.conditions, Occurrence.visit]

/-- An issue at the path of a condition has been found by the check of that condition. -/
theorem mem_ofOccurrence_iff {o : Occurrence} {condition : String × Option Condition}
    (has : condition ∈ o.field.conditions) :
    issue ∈ ofOccurrence env path o ∧ issue.path = o.place path ++ [.key condition.1] ↔
      issue ∈ ofCondition env (o.place path ++ [.key condition.1]) condition.2 := by
  constructor
  · rintro ⟨found, stands⟩
    obtain ⟨condition', has', found⟩ := List.mem_flatMap.mp found
    have same := stands.symm.trans (of_mem_ofCondition found).1
    simp only [List.append_cancel_left_eq, List.cons.injEq, PathSegment.key.injEq, and_true] at same
    cases Field.conditions_injective has has' same
    exact found
  · intro found
    exact ⟨List.mem_flatMap.mpr ⟨condition, has, found⟩, (of_mem_ofCondition found).1⟩

theorem mem_flatMap_ofOccurrence_iff {entries : List (String × Field)} {o : Occurrence}
    {condition : String × Option Condition} (distinct : Field.DistinctEntries entries)
    (member : o ∈ Field.occurrencesAll entries) (has : condition ∈ o.field.conditions) :
    issue ∈ (Field.entered maxDepth entries).flatMap (ofOccurrence env path) ∧
        issue.path = o.place path ++ [.key condition.1] ↔
      o ∈ Field.entered maxDepth entries ∧
        issue ∈ ofCondition env (o.place path ++ [.key condition.1]) condition.2 := by
  rw [← mem_ofOccurrence_iff has]
  constructor
  · rintro ⟨found, stands⟩
    obtain ⟨o', comes, found⟩ := List.mem_flatMap.mp found
    obtain ⟨condition', -, checked⟩ := List.mem_flatMap.mp found
    have places := (of_mem_ofCondition checked).1.symm.trans stands
    cases Occurrence.place_injective distinct (List.mem_filter.mp comes).1 member
      (List.append_inj_left' places rfl)
    exact ⟨comes, found, stands⟩
  · rintro ⟨comes, found, stands⟩
    exact ⟨List.mem_flatMap.mpr ⟨o, comes, found⟩, stands⟩

end Issue

theorem Report.checkOccurrence_eq_pushAll (path : IssuePath) (r : Report) (o : Occurrence) :
    r.checkOccurrence env path o = r.pushAll (Issue.ofOccurrence env path o) := by
  apply foldl_eq_pushAll
  intro r condition
  apply checkCondition_eq_pushAll

theorem Report.checkFields_eq_foldl (path : IssuePath) (entries : List (String × Field))
    (r : Report) : checkFields env maxDepth path entries r =
      (Field.entered maxDepth entries).foldl (checkOccurrence env path) r := by
  rw [checkFields_eq_pushAll, Field.visitsAll_eq_map_entered, List.flatMap_map,
    foldl_eq_pushAll (checkOccurrence_eq_pushAll path)]
  simp only [Issue.ofField_visit]

theorem Report.issues_checkFields (path : IssuePath) (entries : List (String × Field)) :
    (checkFields env maxDepth path entries (.empty true)).issues =
      (Field.entered maxDepth entries).flatMap (Issue.ofOccurrence env path) := by
  rw [checkFields_eq_foldl, foldl_eq_pushAll (checkOccurrence_eq_pushAll path), issues_pushAll rfl]
  rfl

theorem Report.issues_checkCondition (path : IssuePath) (condition : Option Condition) :
    ((empty true).checkCondition env path condition).issues =
      Issue.ofCondition env path condition := by
  rw [checkCondition_eq_pushAll, issues_pushAll rfl]
  rfl

/-! ## Fieldsets that are reported -/

theorem Report.issues_checkForm (form : Form) :
    (checkForm maxDepth base form (.empty true)).issues = Issue.ofForm maxDepth base form := by
  rw [checkForm_eq_pushAll, issues_pushAll rfl]
  rfl

/-- A field is reported to be nested too deeply. -/
def Form.Reports (form : Form) (maxDepth : Nat) (base : IssuePath) (o : Occurrence) : Prop :=
  ∃ issue ∈ (Report.checkForm maxDepth base form (.empty true)).issues,
    issue.code = .nestingTooDeep ∧ issue.path = o.place (base ++ [.key "fields"])

theorem Form.reports_iff {form : Form} {o : Occurrence}
    (member : o ∈ Field.occurrencesAll form.fields.entries) :
    form.Reports maxDepth base o ↔ o.field.type = .fieldset ∧ o.depth = maxDepth := by
  rw [Reports, Report.issues_checkForm]
  constructor
  · rintro ⟨issue, found, deep, stands⟩
    obtain ⟨o', comes, found⟩ := (Issue.mem_ofForm_iff_of_deep deep).mp found
    obtain ⟨⟨fieldset, full⟩, found⟩ := List.mem_ite_nil_right.mp found
    cases List.mem_singleton.mp found
    cases Occurrence.place_injective form.fields.distinct (List.mem_filter.mp comes).1 member
      stands
    have near := (Field.mem_entered_iff.mp comes).2
    exact ⟨fieldset, Nat.le_antisymm near (Nat.le_of_sub_eq_zero full)⟩
  · rintro ⟨fieldset, full⟩
    have comes : o ∈ Field.entered maxDepth form.fields.entries :=
      List.mem_filter.mpr ⟨member, decide_eq_true (Nat.le_of_eq full)⟩
    have spent : (o.visit maxDepth (base ++ [.key "fields"])).room = 0 :=
      Nat.sub_eq_zero_of_le (Nat.le_of_eq full.symm)
    have reported : Issue.ofFinding (.nestingTooDeep maxDepth)
        (o.place (base ++ [.key "fields"])) none ∈ Issue.ofForm maxDepth base form :=
      (Issue.mem_ofForm_iff_of_deep rfl).mpr
        ⟨o, comes, List.mem_ite_nil_right.mpr ⟨⟨fieldset, spent⟩, List.mem_singleton_self _⟩⟩
    exact ⟨_, reported, rfl, rfl⟩

/-- A field is passed over if and only if some fieldset above it is reported. -/
theorem Form.not_mem_entered_iff {form : Form} {o : Occurrence}
    (member : o ∈ Field.occurrencesAll form.fields.entries) :
    o ∉ Field.entered maxDepth form.fields.entries ↔
      ∃ above ∈ Field.occurrencesAll form.fields.entries, above.Above o ∧
        form.Reports maxDepth base above := by
  rw [Field.mem_entered_iff, ← Field.mem_occurrencesAll_iff]
  constructor
  · intro passed
    have deep : maxDepth < o.outer.length := Nat.lt_of_not_le fun near ↦ passed ⟨member, near⟩
    -- The fieldset above the field that no walk enters is the one at which the room is used up.
    obtain ⟨before, group, after, fieldset, split, full, reached, enters⟩ :=
      (Field.mem_occurrencesAll_iff.mp member).exists_above deep
    have above := reached.mem_occurrencesAll
    exact ⟨_, above, ⟨after, split⟩, (reports_iff above).mpr ⟨enters, full⟩⟩
  · rintro ⟨above, listed, stands, reports⟩ ⟨-, near⟩
    have full := ((reports_iff listed).mp reports).2
    have lower := stands.depth_lt
    omega

/-- The walks over the fields of a form come to the same fields, whatever the depth. The conditions
of a field are checked, and the paths of its value are exposed, if and only if it stands in no more
fieldsets than may be entered. It is reported if and only if it is a fieldset that stands in exactly
that many. So a field is passed over if and only if a fieldset above it is reported. -/
theorem Form.walks_agree (form : Form) (maxDepth : Nat) (base : IssuePath) :
    let occurrences := Field.occurrencesAll form.fields.entries
    let entered := occurrences.filter fun o ↦ o.depth ≤ maxDepth
    let path := base ++ [.key "fields"]
    (∀ o, o ∈ occurrences ↔ Field.Reached form.fields.entries o.outer o.id o.field) ∧
    (∀ env r, Report.checkFields env maxDepth path form.fields.entries r =
      entered.foldl (Report.checkOccurrence env path) r) ∧
    (∀ env, ∀ o ∈ occurrences, ∀ condition ∈ o.field.conditions, ∀ issue,
      let place := o.place path ++ [.key condition.1]
      issue ∈ (Report.checkFields env maxDepth path form.fields.entries (.empty true)).issues ∧
          issue.path = place ↔
        o.depth ≤ maxDepth ∧
          issue ∈ ((Report.empty true).checkCondition env place condition.2).issues) ∧
    form.fields.types fieldRoot maxDepth =
      .ofList (entered.flatMap (Occurrence.exposed fieldRoot)) ∧
    (∀ o ∈ occurrences, form.Reports maxDepth base o ↔
      o.field.type = .fieldset ∧ o.depth = maxDepth) ∧
    ∀ o ∈ occurrences, o ∉ entered ↔
      ∃ above ∈ occurrences, above.Above o ∧ form.Reports maxDepth base above := by
  intro occurrences entered path
  refine ⟨fun o ↦ Field.mem_occurrencesAll_iff, fun env r ↦ ?_, ?_, ?_, fun o ↦ Form.reports_iff,
    fun o ↦ Form.not_mem_entered_iff⟩
  · apply Report.checkFields_eq_foldl
  · intro env o member condition has issue place
    rw [Report.issues_checkFields, Report.issues_checkCondition,
      Issue.mem_flatMap_ofOccurrence_iff form.fields.distinct member has, Field.mem_entered_iff,
      ← Field.mem_occurrencesAll_iff, and_iff_right member]
  · rw [Fields.types, Field.exposedAll_eq_flatMap_entered]
    rfl

/-- With one fieldset to be entered, the one within it is reported, and the condition of the field
below is not looked at. -/
theorem Form.walks_agree_below_reported :
    let leaf : Field := ⟨.text, none, none, some (.expression "undefinedThing"), none, []⟩
    let inner : Field := ⟨.fieldset, none, none, none, none, [("leaf", leaf)]⟩
    let outer : Field := ⟨.fieldset, none, none, none, none, [("inner", inner)]⟩
    let form : Form := ⟨none, none, .ofEntries [("outer", outer)], [], .empty⟩
    let passed : Occurrence := ⟨["outer", "inner"], "leaf", leaf⟩
    (Report.checkForm 1 [] form (.empty true)).issues =
        [.ofFinding (.nestingTooDeep 1)
          [.key "fields", .key "outer", .key "fields", .key "inner"] none] ∧
      ∃ above ∈ Field.occurrencesAll form.fields.entries, above.Above passed ∧
        form.Reports 1 [] above := by
  intro leaf inner outer form passed
  have member : passed ∈ Field.occurrencesAll form.fields.entries := by
    apply List.mem_of_getElem? (i := 2)
    rfl
  have too_deep : passed ∉ (Field.occurrencesAll form.fields.entries).filter (·.depth ≤ 1) := by
    intro comes
    exact absurd (List.mem_filter.mp comes).2 (by decide)
  obtain ⟨-, -, -, -, -, passed_over⟩ := Form.walks_agree form 1 []
  exact ⟨by decide +kernel, (passed_over passed member).mp too_deep⟩

end FormRules
