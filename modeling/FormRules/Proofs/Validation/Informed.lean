import FormRules.Proofs.Typing.Order
import FormRules.Proofs.Validation.Found
import Mathlib.Data.List.Flatten

/-!
# Findings stay when more is known

A finding about types needs something to rely on, and that stays as it is in an environment which
tells more of the variables. So every such finding is made there in the same words at the same path.
A report of the first issue has room for it only if nothing is found before it. Variables are looked
up before the type is checked, and one of which nothing is known may go out of scope without less
being told of it. Nothing else can take the place of a finding about types.
-/

namespace FormRules

namespace Issue

/-- Whether an issue is about the type of a condition or of the value of a rule. -/
def isAboutType (issue : Issue) : Bool :=
  issue.code = .booleanContext || issue.code = .typeMismatch

/-- All issues about types in a list are in another, in the same order. -/
def TypesKept (issues issues' : List Issue) : Prop :=
  (issues.filter isAboutType).Sublist (issues'.filter isAboutType)

variable {env env' : Environment} {path : IssuePath} {text : String} {found found' : Inference}
  {issues issues' more more' : List Issue}

theorem typesKept_refl (issues : List Issue) : TypesKept issues issues := List.Sublist.refl _

theorem typesKept_of_eq_nil_or_eq (h : issues = [] ∨ issues' = issues) :
    TypesKept issues issues' := by
  rcases h with rfl | rfl
  · apply List.nil_sublist
  · apply typesKept_refl

theorem typesKept_take_of_eq_nil_or_eq (h : issues = [] ∨ issues' = issues) (count : Nat) :
    TypesKept (issues.take count) (issues'.take count) := by
  apply typesKept_of_eq_nil_or_eq
  rcases h with rfl | rfl
  · exact .inl List.take_nil
  · exact .inr rfl

/-- Nothing has to be kept of issues that are about something else. -/
theorem typesKept_of_forall_not (h : ∀ issue ∈ issues, ¬issue.isAboutType = true) :
    TypesKept issues issues' := by
  rw [TypesKept, List.filter_eq_nil_iff.mpr h]
  apply List.nil_sublist

theorem TypesKept.append (h : TypesKept issues issues') (h' : TypesKept more more') :
    TypesKept (issues ++ more) (issues' ++ more') := by
  unfold TypesKept
  rw [List.filter_append, List.filter_append]
  exact List.Sublist.append h h'

theorem typesKept_flatMap {α : Type} {issuesOf issuesOf' : α → List Issue} {items : List α}
    (h : ∀ item ∈ items, TypesKept (issuesOf item) (issuesOf' item)) :
    TypesKept (items.flatMap issuesOf) (items.flatMap issuesOf') := by
  unfold TypesKept
  rw [List.filter_flatMap, List.filter_flatMap]
  exact List.Sublist.flatMap_right items h

/-! ## Expressions -/

theorem not_isAboutType_of_mem_ofVariables {e : Expr} {issue : Issue}
    (member : issue ∈ ofVariables env path text e) : ¬issue.isAboutType = true := by
  obtain ⟨name, -, rfl⟩ := List.mem_map.mp member
  exact Bool.false_ne_true

theorem ofBoolean_eq_nil_or_eq (h : found.Below found') :
    ofBoolean path text found = [] ∨ ofBoolean path text found' = ofBoolean path text found := by
  unfold ofBoolean
  split
  · next wrong =>
    rw [Bool.and_eq_true] at wrong
    obtain ⟨confident', same⟩ := h.isConfident wrong.1
    right
    rw [confident', same, wrong.2]
    rfl
  · exact .inl rfl

theorem ofDeclared_eq_nil_or_eq (declared : ValueType) (h : found.Below found') :
    ofDeclared declared path text found = [] ∨
      ofDeclared declared path text found' = ofDeclared declared path text found := by
  unfold ofDeclared
  split
  · next wrong =>
    simp only [Bool.and_eq_true] at wrong
    obtain ⟨⟨known, confident⟩, unaccepted⟩ := wrong
    obtain ⟨confident', same⟩ := h.isConfident confident
    right
    rw [confident', same, known, unaccepted]
    rfl
  · exact .inl rfl

/-- All that is held is a variable of an expression that is in scope only in the first of two
environments. Nothing is known of it there. -/
def LosesVariable (env env' : Environment) (path : IssuePath) (text : String)
    (issues : List Issue) : Prop :=
  ∃ e name, Expr.parse text = .ok e ∧ name ∈ e.variableNames ∧ env.get? name = some .unknown ∧
    env'.get? name = none ∧ issues = [.ofFinding (.unknownVariable name) path text]

/-- The issues about types that an expression has in one environment it has in another, and the
first issue gives way to nothing but a variable that has gone out of scope. -/
structure Persist (env env' : Environment) (path : IssuePath) (text : String)
    (issues issues' : List Issue) : Prop where
  all : TypesKept issues issues'
  first : TypesKept (issues.take 1) (issues'.take 1) ∨
    LosesVariable env env' path text (issues'.take 1)

theorem persist_refl (issues : List Issue) : Persist env env' path text issues issues :=
  ⟨typesKept_refl _, .inl (typesKept_refl _)⟩

theorem Persist.append_left (h : Persist env env' path text issues issues') (before : List Issue) :
    Persist env env' path text (before ++ issues) (before ++ issues') where
  all := (typesKept_refl before).append h.all
  first := by
    cases before with
    | nil => exact h.first
    | cons issue rest => exact .inl (typesKept_refl [issue])

theorem losesVariable_of_ofVariables (h : env.Below env') {e : Expr} {issue : Issue}
    (parsed : Expr.parse text = .ok e) (complete : ofVariables env path text e = [])
    (found : ofVariables env' path text e = issue :: issues) :
    LosesVariable env env' path text [issue] := by
  have member : issue ∈ ofVariables env' path text e := found ▸ List.mem_cons_self
  obtain ⟨name, filtered, rfl⟩ := List.mem_map.mp member
  obtain ⟨occurs, outside⟩ := List.mem_filter.mp filtered
  have inside : env.knows name = true := by
    have covered := List.filter_eq_nil_iff.mp (List.map_eq_nil_iff.mp complete) name occurs
    simpa using covered
  obtain ⟨untold, absent⟩ := h.get?_eq_unknown inside (by simpa using outside)
  exact ⟨e, name, parsed, occurs, untold, absent, rfl⟩

/-- Which variables are out of scope may differ, but that is no finding about types. -/
theorem persist_ofExpression (h : env.Below env') {ofType : Inference → List Issue}
    (stays : ∀ found found', found.Below found' →
      ofType found = [] ∨ ofType found' = ofType found) :
    Persist env env' path text (ofExpression env path text ofType)
      (ofExpression env' path text ofType) := by
  unfold ofExpression
  cases parsed : Expr.parse text with
  | error fault => apply persist_refl
  | ok e =>
    dsimp only
    have types := stays _ _ (Expr.infer_below h e)
    constructor
    case all =>
      apply TypesKept.append
      · exact typesKept_of_forall_not fun _ ↦ not_isAboutType_of_mem_ofVariables
      · exact typesKept_of_eq_nil_or_eq types
    case first =>
      cases unknown : ofVariables env path text e with
      | cons issue rest =>
        -- There is no room for the type in the first environment either.
        left
        apply typesKept_of_forall_not
        intro first member
        obtain rfl := List.mem_singleton.mp member
        exact not_isAboutType_of_mem_ofVariables (unknown ▸ List.mem_cons_self)
      | nil =>
        cases lost : ofVariables env' path text e with
        | cons issue rest => exact .inr (losesVariable_of_ofVariables h parsed unknown lost)
        | nil => exact .inl (typesKept_take_of_eq_nil_or_eq types 1)

theorem persist_ofCondition (h : env.Below env') : Persist env env' path text
    (ofCondition env path (some (.expression text)))
    (ofCondition env' path (some (.expression text))) :=
  persist_ofExpression h fun _ _ ↦ ofBoolean_eq_nil_or_eq

theorem persist_ofLeaf (h : env.Below env') (entry : LogicEntry) (cyclic : Bool)
    (property : Option String) :
    Persist env env' (path ++ property.toList.map .key) text
      (ofLeaf env entry cyclic path property text)
      (ofLeaf env' entry cyclic path property text) := by
  unfold ofLeaf
  apply Persist.append_left
  apply persist_ofExpression h
  intro found found' below
  split
  · exact .inl rfl
  · exact ofDeclared_eq_nil_or_eq _ below

theorem typesKept_ofEntry (h : env.Below env') (entry : LogicEntry) (cyclic : Bool) :
    TypesKept (ofEntry env entry cyclic path) (ofEntry env' entry cyclic path) := by
  unfold ofEntry
  split
  · apply typesKept_refl
  · apply typesKept_flatMap
    intro leaf _
    exact (persist_ofLeaf h entry cyclic leaf.1).all

end Issue

namespace Report

open Issue

variable {env env' : Environment} {path : IssuePath} {text : String} {issues issues' : List Issue}

theorem typesKept_pushAll {r : Report} (all : TypesKept issues issues')
    (first : r = empty false → TypesKept (issues.take 1) (issues'.take 1)) :
    TypesKept (r.pushAll issues).issues (r.pushAll issues').issues := by
  cases collected : r.collectAll with
  | true =>
    rw [issues_pushAll collected, issues_pushAll collected]
    exact (typesKept_refl _).append all
  | false =>
    rcases eq_empty_or_isDone collected with fresh | done
    · subst fresh
      rw [issues_pushAll_first, issues_pushAll_first]
      exact first rfl
    · rw [pushAll_of_isDone done, pushAll_of_isDone done]
      apply typesKept_refl

/-- A report ends with the findings about types with which it ends in the other environment, unless
it takes the first issue only and that is a variable that has gone out of scope. -/
theorem typesKept_or_losesVariable (h : Persist env env' path text issues issues') (r : Report) :
    TypesKept (r.pushAll issues).issues (r.pushAll issues').issues ∨
      r.collectAll = false ∧ LosesVariable env env' path text (r.pushAll issues').issues := by
  rcases h.first with first | lost
  · exact .inl (typesKept_pushAll h.all fun _ ↦ first)
  · by_cases fresh : r = empty false
    · subst fresh
      right
      rw [issues_pushAll_first]
      exact ⟨rfl, lost⟩
    · exact .inl (typesKept_pushAll h.all fun same ↦ absurd same fresh)

/-- Where something is found about types, something is found with more being known. -/
theorem pushAll_ne_nil_of_typesKept {r : Report} (kept : TypesKept issues issues')
    (found : (r.pushAll issues).issues.any isAboutType = true) :
    (r.pushAll issues').issues ≠ [] := by
  intro nothing
  have fresh : r.issues = [] :=
    Classical.byContradiction fun filled ↦ issues_pushAll_ne_nil filled nothing
  have blank : r = empty r.collectAll := by rw [empty, ← fresh]
  rw [blank, issues_pushAll_empty_eq_nil_iff] at nothing
  obtain ⟨issue, member, about⟩ := List.any_eq_true.mp found
  rcases mem_issues_pushAll member with earlier | listed
  · rw [fresh] at earlier
    cases earlier
  · have still := kept.subset (List.mem_filter.mpr ⟨listed, about⟩)
    rw [nothing] at still
    cases still

end Report

/-- Between two environments with the same functions of which the second tells no less of any name,
inference tells no less of any expression either. So every finding that a condition is no truth
value, or that a value does not have its declared type, is in a report for the second as it is in
the same report for the first. Only a report of the first issue may hold something else: a variable
of that expression of which the first knows nothing, and which is out of scope in the second. -/
theorem Environment.inference_monotone {env env' : Environment}
    (functions : env.functions = env'.functions)
    (known : ∀ name, (env.known name).Below (env'.known name)) :
    (∀ e : Expr, (e.infer env).Below (e.infer env')) ∧
    (∀ (path : IssuePath) (condition : Option Condition) (r : Report),
      Issue.TypesKept (r.checkCondition env path condition).issues
        (r.checkCondition env' path condition).issues ∨
      r.collectAll = false ∧ ∃ text, condition = some (.expression text) ∧
        Issue.LosesVariable env env' path text (r.checkCondition env' path condition).issues) ∧
    (∀ (declared : ValueType) (path : IssuePath) (text : String) (e : Expr) (r : Report),
      Issue.TypesKept (r.checkDeclared declared path text (e.infer env)).issues
        (r.checkDeclared declared path text (e.infer env')).issues) ∧
    (∀ (entry : LogicEntry) (cyclic : Bool) (path : IssuePath) (property : Option String)
      (text : String) (r : Report),
      Issue.TypesKept (r.checkLeaf env entry cyclic path property text).issues
        (r.checkLeaf env' entry cyclic path property text).issues ∨
      r.collectAll = false ∧ Issue.LosesVariable env env' (path ++ property.toList.map .key) text
        (r.checkLeaf env' entry cyclic path property text).issues) ∧
    ∀ (entry : LogicEntry) (cyclic : Bool) (path : IssuePath) (r : Report),
      (r.collectAll = true → Issue.TypesKept (r.checkEntry env entry cyclic path).issues
        (r.checkEntry env' entry cyclic path).issues) ∧
      ((r.checkEntry env entry cyclic path).issues.any Issue.isAboutType = true →
        (r.checkEntry env' entry cyclic path).issues ≠ []) := by
  have below : env.Below env' := ⟨functions, known⟩
  refine ⟨Expr.infer_below below, ?_, ?_, ?_, ?_⟩
  · intro path condition r
    rw [Report.checkCondition_eq_pushAll, Report.checkCondition_eq_pushAll]
    match condition with
    | none | some (.literal _) => exact .inl (Issue.typesKept_refl _)
    | some (.expression text) =>
      rcases Report.typesKept_or_losesVariable (Issue.persist_ofCondition below) r with kept | lost
      · exact .inl kept
      · exact .inr ⟨lost.1, text, rfl, lost.2⟩
  · intro declared path text e r
    rw [Report.checkDeclared_eq_pushAll, Report.checkDeclared_eq_pushAll]
    have stays : Issue.ofDeclared declared path text (e.infer env) = [] ∨
        Issue.ofDeclared declared path text (e.infer env') =
          Issue.ofDeclared declared path text (e.infer env) :=
      Issue.ofDeclared_eq_nil_or_eq declared (Expr.infer_below below e)
    exact Report.typesKept_pushAll (Issue.typesKept_of_eq_nil_or_eq stays)
      fun _ ↦ Issue.typesKept_take_of_eq_nil_or_eq stays 1
  · intro entry cyclic path property text r
    rw [Report.checkLeaf_eq_pushAll, Report.checkLeaf_eq_pushAll]
    exact Report.typesKept_or_losesVariable (Issue.persist_ofLeaf below entry cyclic property) r
  · intro entry cyclic path r
    rw [Report.checkEntry_eq_pushAll, Report.checkEntry_eq_pushAll]
    have kept : Issue.TypesKept (Issue.ofEntry env entry cyclic path)
        (Issue.ofEntry env' entry cyclic path) := Issue.typesKept_ofEntry below entry cyclic
    constructor
    · intro all
      apply Report.typesKept_pushAll kept
      rintro rfl
      cases all
    · exact Report.pushAll_ne_nil_of_typesKept kept

/-- A number that is trusted further, and a text that comes into scope: what was found out of scope
is no longer so, and the condition is still found to be a number. -/
theorem Environment.inference_monotone_of_more_known :
    let env := Environment.initial.insert "price" (.inferred .number)
    let env' := (Environment.initial.insert "note" (.certain .string)).insert "price"
      (.certain .number)
    let text := "price + length(note)"
    let check (env : Environment) :=
      (Report.empty true).checkCondition env [] (some (.expression text))
    env.functions = env'.functions ∧ (∀ name, (env.known name).Below (env'.known name)) ∧
    (check env).issues = [.ofFinding (.unknownVariable "note") [] text,
      .ofFinding (.notBoolean .number) [] text] ∧
    (check env').issues = [.ofFinding (.notBoolean .number) [] text] ∧
    Issue.TypesKept (check env).issues (check env').issues := by
  intro env env' text check
  have functions : env.functions = env'.functions := rfl
  have known : ∀ name, (env.known name).Below (env'.known name) := by
    intro name
    by_cases price : "price" = name
    · subst price
      exact ⟨.inr rfl, by decide⟩
    · have nothing : env.known name = .unknown := by
        rw [Environment.known, get?_insert, if_neg price]
        rfl
      rw [nothing]
      apply Inference.unknown_below
  refine ⟨functions, known, by decide +kernel, by decide +kernel, ?_⟩
  rcases (Environment.inference_monotone functions known).2.1 [] (some (.expression text))
    (.empty true) with kept | ⟨first, -⟩
  · exact kept
  · cases first

/-- A variable of which nothing is known goes out of scope, so that the same is known of every name.
A report of the first issue then holds the variable and no longer that a length is no truth
value. -/
theorem Environment.type_finding_displaced :
    let env := Environment.initial.insert "fields.x.value" .unknown
    let env' := Environment.initial
    let text := "length(fields.x.value)"
    let check (env : Environment) :=
      (Report.empty false).checkCondition env [] (some (.expression text))
    env.functions = env'.functions ∧ (∀ name, (env.known name).Below (env'.known name)) ∧
    (check env).issues = [.ofFinding (.notBoolean .integer) [] text] ∧
    (check env').issues = [.ofFinding (.unknownVariable "fields.x.value") [] text] ∧
    ¬Issue.TypesKept (check env).issues (check env').issues := by
  intro env env' text check
  have before : (check env).issues = [.ofFinding (.notBoolean .integer) [] text] := by
    decide +kernel
  have after : (check env').issues = [.ofFinding (.unknownVariable "fields.x.value") [] text] := by
    decide +kernel
  refine ⟨rfl, ?_, before, after, ?_⟩
  · intro name
    have same : env.known name = env'.known name := by
      rw [Environment.known, Environment.known, get?_insert]
      split
      · next field =>
        subst field
        rfl
      · rfl
    rw [same]
    apply Inference.below_refl
  · rw [before, after]
    intro kept
    cases List.sublist_nil.mp kept

end FormRules
