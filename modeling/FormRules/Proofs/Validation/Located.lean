import FormRules.Proofs.Scope.Dependency
import FormRules.Proofs.Validation.Artifact
import FormRules.Proofs.Validation.Path

/-!
# Issues point at what they are about

The path of an issue is a path through the artifact as it is written. A check that is given the path
of something extends it by the keys under which the parts of that are written, so at the end of the
path there stands what has been checked: a text, a rule, a fieldset or a truth value.
-/

namespace FormRules

namespace Issue

/-- An issue is about the node that its path leads to. -/
structure Concerns (issue : Issue) (node : Json) : Prop where
  expression : ∀ text, issue.expression = some text → node = .text text
  rule : issue.code = .circularDependency → ∃ base key, ∃ entry : LogicEntry,
    issue.path = Report.rulePath base key ∧ node = entry.toJson
  fieldset : issue.code = .nestingTooDeep →
    ∃ field : Field, field.type = .fieldset ∧ node = field.toJson
  literal : issue.code = .typeMismatch → issue.expression = none →
    ∃ value, node = .boolean value
  variableName : issue.code = .unknownVariable → ∃ name text e, issue.variableName = some name ∧
    node = .text text ∧ Expr.parse text = .ok e ∧ name ∈ e.variableNames

/-- What the path of an issue leads to in a document is there, and the issue is about it. -/
def PointsInto (document : Json) (issue : Issue) : Prop :=
  ∃ node, document.at? issue.path = some node ∧ issue.Concerns node

end Issue

/-- A finding can be about a text that an expression was read from. -/
def Finding.IsAbout (text : String) : Finding → Prop
  | .circularDependency | .nestingTooDeep _ => False
  | .unknownVariable name => ∃ e, Expr.parse text = .ok e ∧ name ∈ e.variableNames
  | _ => True

namespace Issue

variable {document : Json} {issue : Issue} {maxDepth : Nat}

section Checks

variable {env : Environment} {path base : IssuePath} {text : String}

/-! ## Expressions -/

theorem pointsInto_ofFinding {finding : Finding} (stands : document.at? path = some (.text text))
    (about : finding.IsAbout text) :
    (ofFinding finding path (some text)).PointsInto document := by
  refine ⟨.text text, stands, ?_, ?_, ?_, ?_, ?_⟩
  · rintro _ ⟨⟩
    rfl
  · intro code
    cases finding <;> cases code
    exact about.elim
  · intro code
    cases finding <;> cases code
    exact about.elim
  · rintro - ⟨⟩
  · intro code
    cases finding <;> cases code
    obtain ⟨e, parsed, used⟩ := about
    exact ⟨_, text, e, rfl, rfl, parsed, used⟩

theorem pointsInto_of_mem_ofExpression {ofType : Inference → List Issue}
    (stands : document.at? path = some (.text text))
    (h : ∀ found, ∀ issue ∈ ofType found, issue.PointsInto document)
    (found : issue ∈ ofExpression env path text ofType) : issue.PointsInto document := by
  unfold ofExpression at found
  cases parsed : Expr.parse text with
  | error fault =>
    rw [parsed] at found
    cases List.mem_singleton.1 found
    exact pointsInto_ofFinding stands trivial
  | ok e =>
    rw [parsed] at found
    rcases List.mem_append.1 found with found | found
    · obtain ⟨name, unknown, rfl⟩ := List.mem_map.1 found
      exact pointsInto_ofFinding stands ⟨e, parsed, List.mem_of_mem_filter unknown⟩
    · exact h _ issue found

theorem pointsInto_of_mem_ofCondition {condition : Option Condition}
    (stands : document.at? path = condition.map Condition.toJson)
    (found : issue ∈ ofCondition env path condition) : issue.PointsInto document := by
  match condition with
  | none | some (.literal _) => cases found
  | some (.expression text) =>
    apply pointsInto_of_mem_ofExpression stands _ found
    intro found issue member
    obtain ⟨-, member⟩ := List.mem_ite_nil_right.1 member
    cases List.mem_singleton.1 member
    exact pointsInto_ofFinding stands trivial

theorem pointsInto_of_mem_ofConditions {node : Json} {required visible : Option Condition}
    (stands : document.at? path = some node)
    (required_stands : node.child? (.key "required") = required.map Condition.toJson)
    (visible_stands : node.child? (.key "visible") = visible.map Condition.toJson)
    (found : issue ∈ ofConditions env path required visible) : issue.PointsInto document := by
  rcases List.mem_append.1 found with found | found
  · exact pointsInto_of_mem_ofCondition ((Json.at?_concat stands _).trans required_stands) found
  · exact pointsInto_of_mem_ofCondition ((Json.at?_concat stands _).trans visible_stands) found

/-! ## Rules -/

theorem pointsInto_of_mem_ofLeaf {entry : LogicEntry} {cyclic : Bool} {property : Option String}
    (stands : document.at? (path ++ property.toList.map .key) = some (.text text))
    (found : issue ∈ ofLeaf env entry cyclic path property text) : issue.PointsInto document := by
  rcases List.mem_append.1 found with found | found
  · cases property with
    | none => cases found
    | some name =>
      obtain ⟨-, found⟩ := List.mem_ite_nil_left.1 found
      cases List.mem_singleton.1 found
      exact pointsInto_ofFinding stands trivial
  · apply pointsInto_of_mem_ofExpression stands _ found
    intro found issue member
    obtain ⟨-, member⟩ := List.mem_ite_nil_left.1 member
    obtain ⟨-, member⟩ := List.mem_ite_nil_right.1 member
    cases List.mem_singleton.1 member
    exact pointsInto_ofFinding stands trivial

theorem pointsInto_of_mem_ofEntry {entry : LogicEntry} {cyclic : Bool}
    (stands : document.at? path = some entry.value.toJson)
    (found : issue ∈ ofEntry env entry cyclic path) : issue.PointsInto document := by
  unfold ofEntry at found
  match value : entry.value with
  | .literal truth =>
    rw [value] at stands
    simp only [value] at found
    obtain ⟨-, found⟩ := List.mem_ite_nil_right.1 found
    cases List.mem_singleton.1 found
    refine ⟨.boolean truth, stands, ?_, ?_, ?_, ?_, ?_⟩
    · rintro _ ⟨⟩
    · rintro ⟨⟩
    · rintro ⟨⟩
    · exact fun _ _ ↦ ⟨truth, rfl⟩
    · rintro ⟨⟩
  | .expression text =>
    rw [value] at stands
    simp only [value] at found
    obtain ⟨leaf, member, found⟩ := List.mem_flatMap.1 found
    cases List.mem_singleton.1 member
    apply pointsInto_of_mem_ofLeaf _ found
    rw [Json.at?_append stands]
    rfl
  | .object properties =>
    rw [value] at stands
    simp only [value] at found
    obtain ⟨leaf, member, found⟩ := List.mem_flatMap.1 found
    obtain ⟨⟨name, text⟩, listed, rfl⟩ := List.mem_map.1 member
    apply pointsInto_of_mem_ofLeaf _ found
    refine (Json.at?_concat stands _).trans ?_
    rw [LogicValue.child?_property, OrderedMap.mem_entries_iff.1 listed]
    rfl

variable {artifact : Artifact}

theorem pointsInto_of_mem_ofCycles (stands : document.at? base = some artifact.toJson)
    (found : issue ∈ ofCycles (LogicSection.order artifact.logic) base) :
    issue.PointsInto document := by
  obtain ⟨key, cyclic, rfl⟩ := List.mem_map.1 found
  have declared : key ∈ artifact.logic.keys := by
    rw [← LogicSection.nodes_dependencies]
    exact (Graph.cyclic_sublist _).subset cyclic
  obtain ⟨entry, declares⟩ := OrderedMap.mem_keys_iff.1 declared
  refine ⟨entry.toJson, ?_, ?_, ?_, ?_, ?_, ?_⟩
  · exact (Json.at?_append stands _).trans (Artifact.at?_rule declares)
  · rintro _ ⟨⟩
  · exact fun _ ↦ ⟨base, key, entry, rfl, rfl⟩
  · rintro ⟨⟩
  · rintro ⟨⟩
  · rintro ⟨⟩

theorem pointsInto_of_mem_ofLogic (stands : document.at? base = some artifact.toJson)
    (found : issue ∈ ofLogic env (LogicSection.order artifact.logic) artifact.logic base) :
    issue.PointsInto document := by
  rcases List.mem_append.1 found with found | found
  · exact pointsInto_of_mem_ofCycles stands found
  · obtain ⟨⟨key, entry⟩, member, found⟩ := List.mem_flatMap.1 found
    have rule : document.at? (Report.rulePath base key) = some entry.toJson :=
      (Json.at?_append stands _).trans (Artifact.at?_rule (OrderedMap.mem_entries_iff.1 member))
    exact pointsInto_of_mem_ofEntry ((Json.at?_concat rule _).trans entry.child?_value) found

/-! ## Forms -/

variable {form : Form} {visit : Visit}

theorem at?_of_mem_visitsAll (stands : document.at? base = some (Artifact.form form).toJson)
    (visited : visit ∈ Field.visitsAll maxDepth (base ++ [.key "fields"]) form.fields.entries) :
    document.at? visit.path = some visit.field.toJson := by
  obtain ⟨outer, id, reached, -, place⟩ := Field.exists_reached_of_mem_visitsAll visited
  rw [place]
  apply reached.at?_place form.fields.distinct
  exact (Json.at?_append stands _).trans (Artifact.form_at?_fields form)

theorem pointsInto_of_mem_ofDepth (stands : document.at? visit.path = some visit.field.toJson)
    (found : issue ∈ ofDepth maxDepth visit) : issue.PointsInto document := by
  obtain ⟨⟨fieldset, -⟩, found⟩ := List.mem_ite_nil_right.1 found
  cases List.mem_singleton.1 found
  refine ⟨visit.field.toJson, stands, ?_, ?_, ?_, ?_, ?_⟩
  · rintro _ ⟨⟩
  · rintro ⟨⟩
  · exact fun _ ↦ ⟨visit.field, fieldset, rfl⟩
  · rintro ⟨⟩
  · rintro ⟨⟩

theorem pointsInto_of_mem_ofForm (stands : document.at? base = some (Artifact.form form).toJson)
    (found : issue ∈ ofForm maxDepth base form) : issue.PointsInto document := by
  simp only [ofForm, List.mem_append, List.mem_flatMap] at found
  rcases found with ((⟨visit, visited, found⟩ | found) | ⟨visit, visited, found⟩) |
    ⟨⟨annex, place⟩, listed, found⟩
  · exact pointsInto_of_mem_ofDepth (at?_of_mem_visitsAll stands visited) found
  · exact pointsInto_of_mem_ofLogic stands found
  · exact pointsInto_of_mem_ofConditions (at?_of_mem_visitsAll stands visited)
      visit.field.child?_required visit.field.child?_visible found
  · apply pointsInto_of_mem_ofConditions _ annex.child?_required annex.child?_visible found
    rw [Json.at?_append stands, Artifact.form_at?_annexes, List.mk_mem_zipIdx_iff_getElem?.1 listed]
    rfl

end Checks

/-! ## Artifacts

The induction is on the artifact, for every path at which it can stand in the document, since an
artifact within a bundle stands at a longer path than the bundle.
-/

theorem pointsInto_of_mem_include {env : Environment} {path : IssuePath} {item : Item}
    (stands : document.at? path = some (Artifact.itemToJson item))
    (found : issue ∈ ofCondition env (path ++ [.key "include"]) item.condition) :
    issue.PointsInto document :=
  pointsInto_of_mem_ofCondition
    ((Json.at?_concat stands _).trans (Artifact.item_child?_include item)) found

mutual

theorem pointsInto_of_mem_ofArtifact : ∀ (artifact : Artifact) {base : IssuePath},
    document.at? base = some artifact.toJson → issue ∈ ofArtifact maxDepth base artifact →
      issue.PointsInto document
  | .form form, base, stands, found => by
    rw [ofArtifact] at found
    exact pointsInto_of_mem_ofForm stands found
  | .bundle name title logic contents, base, stands, found => by
    rw [ofArtifact] at found
    rcases List.mem_append.1 found with found | found
    · exact pointsInto_of_mem_ofLogic stands found
    · apply pointsInto_of_mem_ofItems contents _ found
      intro more item listed
      rw [Json.at?_append stands, Artifact.bundle_at?_contents, Nat.zero_add, listed]
      rfl
  | .document _, _, _, found | .checklist _, _, _, found => by
    rw [ofArtifact] at found
    cases found

theorem pointsInto_of_mem_ofItem : ∀ (item : Item) {env : Environment} {path : IssuePath},
    document.at? path = some (Artifact.itemToJson item) → issue ∈ ofItem maxDepth env path item →
      issue.PointsInto document
  | .inline key condition artifact, env, path, stands, found => by
    rw [ofItem] at found
    rcases List.mem_append.1 found with found | found
    · exact pointsInto_of_mem_include stands found
    · have within : document.at? (path ++ [.key "artifact"]) = some artifact.toJson :=
        (Json.at?_concat stands _).trans (Artifact.inline_child?_artifact key condition artifact)
      exact pointsInto_of_mem_ofArtifact artifact within found
  | .path _ _ _, _, _, stands, found | .registry _ _ _, _, _, stands, found => by
    rw [ofItem] at found
    exact pointsInto_of_mem_include stands found

/-- The items are those that stand in a bundle from a place on. -/
theorem pointsInto_of_mem_ofItems : ∀ (items : List Item) {env : Environment} {base : IssuePath}
    {place : Nat}, (∀ more item, items[more]? = some item →
      document.at? (base ++ [.key "contents", .index (place + more)]) =
        some (Artifact.itemToJson item)) →
    issue ∈ ofItems maxDepth env base place items → issue.PointsInto document
  | [], _, _, _, _, found => by
    rw [ofItems] at found
    cases found
  | item :: rest, env, base, place, stand, found => by
    rw [ofItems] at found
    rcases List.mem_append.1 found with found | found
    · exact pointsInto_of_mem_ofItem item (stand 0 item rfl) found
    · apply pointsInto_of_mem_ofItems rest _ found
      intro more item listed
      rw [Nat.add_right_comm]
      exact stand (more + 1) item listed

end

end Issue

/-- Every issue that is reported has a path through the artifact as it is written, and is about what
stands there. -/
theorem Artifact.issues_located (artifact : Artifact) (options : Options) {issue : Issue}
    (reported : issue ∈ artifact.validate options) :
    ∃ node, artifact.toJson.at? issue.path = some node ∧ issue.Concerns node :=
  Issue.pointsInto_of_mem_ofArtifact artifact Json.at?_nil (mem_ofArtifact_of_mem_validate reported)

/-- A form within a bundle, with a fieldset that is nested too deeply, a rule on a cycle, a truth
value where a number is declared, and an annex with a condition that uses an unknown name. -/
theorem Artifact.issues_located_within_bundle :
    let group (fields : List (String × Field)) : Field :=
      ⟨.fieldset, none, none, none, none, fields⟩
    let form : Form :=
      ⟨none, none, .ofEntries [("outer", group [("inner", group [])])],
        [⟨"proof", none, none, some (.expression "missing")⟩],
        .ofList [("loop", ⟨.boolean, none, none, .expression "not loop"⟩),
          ("rate", ⟨.number, none, none, .literal true⟩)]⟩
    let artifact : Artifact := .bundle none none .empty [.inline "form" none (.form form)]
    let issue (finding : Finding) (path : IssuePath) (expression : Option String) : Issue :=
      .ofFinding finding ([.key "contents", .index 0, .key "artifact"] ++ path) expression
    let issues : List Issue :=
      [issue (.nestingTooDeep 1) [.key "fields", .key "outer", .key "fields", .key "inner"] none,
        issue .circularDependency [.key "logic", .key "loop"] none,
        issue (.booleanLiteral .number) [.key "logic", .key "rate", .key "value"] none,
        issue (.unknownVariable "missing") [.key "annexes", .index 0, .key "visible"]
          (some "missing")]
    artifact.validate ⟨true, 1⟩ = issues ∧ ∀ issue ∈ issues,
      ∃ node, artifact.toJson.at? issue.path = some node ∧ issue.Concerns node := by
  intro group form artifact issue issues
  have reported : artifact.validate ⟨true, 1⟩ = issues := by decide +kernel
  refine ⟨reported, ?_⟩
  intro issue listed
  rw [← reported] at listed
  exact artifact.issues_located ⟨true, 1⟩ listed

end FormRules
