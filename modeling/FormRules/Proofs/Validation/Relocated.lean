import FormRules.Proofs.Validation.Artifact
import FormRules.Proofs.Validation.Visited

/-!
# Issues below another path

Every check extends the path that it is given and does nothing else with it. So what is found below
a longer path is what is found below its end, with the beginning put before each path.
-/

namespace FormRules

/-- The same visit of a walk that starts below a path. -/
def Visit.under (base : IssuePath) (visit : Visit) : Visit :=
  { visit with path := base ++ visit.path }

theorem Occurrence.visit_append (base path : IssuePath) (room : Nat) (o : Occurrence) :
    o.visit room (base ++ path) = (o.visit room path).under base := by
  rw [visit, place, Field.place_eq_append, List.append_assoc, ← Field.place_eq_append path]
  rfl

theorem Field.visitsAll_append (base path : IssuePath) (room : Nat)
    (entries : List (String × Field)) :
    visitsAll room (base ++ path) entries =
      (visitsAll room path entries).map (Visit.under base) := by
  rw [visitsAll_eq_map_entered, visitsAll_eq_map_entered, List.map_map]
  apply List.map_congr_left
  intro o _
  exact o.visit_append base path room

namespace Issue

/-- The same issue below a path. -/
def under (base : IssuePath) (issue : Issue) : Issue := { issue with path := base ++ issue.path }

variable {env : Environment} {text : String} {maxDepth : Nat} (base path : IssuePath)

/-! ## Expressions -/

theorem ofExpression_append {ofType ofType' : Inference → List Issue}
    (h : ∀ found, ofType' found = (ofType found).map (under base)) :
    ofExpression env (base ++ path) text ofType' =
      (ofExpression env path text ofType).map (under base) := by
  have unknown : ∀ e, ofVariables env (base ++ path) text e =
      (ofVariables env path text e).map (under base) := by
    intro e
    rw [ofVariables, ofVariables, List.map_map]
    rfl
  unfold ofExpression
  cases Expr.parse text with
  | error fault => rfl
  | ok e =>
    dsimp only
    rw [h, unknown, List.map_append]

theorem ofCondition_append (condition : Option Condition) :
    ofCondition env (base ++ path) condition =
      (ofCondition env path condition).map (under base) := by
  match condition with
  | none | some (.literal _) => rfl
  | some (.expression text) =>
    apply ofExpression_append
    intro found
    unfold ofBoolean
    split <;> rfl

theorem ofConditions_append (required visible : Option Condition) :
    ofConditions env (base ++ path) required visible =
      (ofConditions env path required visible).map (under base) := by
  rw [ofConditions, List.append_assoc, List.append_assoc, ofCondition_append base,
    ofCondition_append base, ← List.map_append, ofConditions]

/-! ## Rules -/

theorem ofDeclared_append (declared : ValueType) (found : Inference) :
    ofDeclared declared (base ++ path) text found =
      (ofDeclared declared path text found).map (under base) := by
  unfold ofDeclared
  split <;> rfl

theorem ofProperty_append (type : FieldType) (property : Option String) :
    ofProperty type (base ++ path) text property =
      (ofProperty type path text property).map (under base) := by
  cases property with
  | none => rfl
  | some name =>
    unfold ofProperty
    dsimp only
    split <;> rfl

theorem ofLeaf_append (entry : LogicEntry) (cyclic : Bool) (property : Option String) :
    ofLeaf env entry cyclic (base ++ path) property text =
      (ofLeaf env entry cyclic path property text).map (under base) := by
  unfold ofLeaf
  dsimp only
  rw [List.append_assoc, ofProperty_append base, List.map_append]
  congr 1
  apply ofExpression_append
  intro found
  cases cyclic with
  | true => rfl
  | false => exact ofDeclared_append base _ _ found

theorem ofEntry_append (entry : LogicEntry) (cyclic : Bool) :
    ofEntry env entry cyclic (base ++ path) =
      (ofEntry env entry cyclic path).map (under base) := by
  unfold ofEntry
  cases entry.value with
  | literal value =>
    dsimp only
    split <;> rfl
  | expression text => simp only [ofLeaf_append, List.map_flatMap]
  | object properties => simp only [ofLeaf_append, List.map_flatMap]

theorem ofLogic_append (order : Order String) (logic : LogicSection) :
    ofLogic env order logic (base ++ path) =
      (ofLogic env order logic path).map (under base) := by
  have rule_path : ∀ key,
      Report.rulePath (base ++ path) key = base ++ Report.rulePath path key := by
    intro key
    rw [Report.rulePath, List.append_assoc, Report.rulePath]
  have cycles : ofCycles order (base ++ path) = (ofCycles order path).map (under base) := by
    simp only [ofCycles, rule_path, List.map_map]
    rfl
  have rule : ofRule env order (base ++ path) =
      fun rule ↦ (ofRule env order path rule).map (under base) := by
    funext rule
    rw [ofRule, rule_path, List.append_assoc, ofEntry_append base, ofRule]
  rw [ofLogic, cycles, rule, ← List.map_flatMap, ← List.map_append, ofLogic]

/-! ## Artifacts -/

theorem ofForm_append (form : Form) :
    ofForm maxDepth (base ++ path) form = (ofForm maxDepth path form).map (under base) := by
  have depth : ∀ visit, ofDepth maxDepth (.under base visit) =
      (ofDepth maxDepth visit).map (under base) := by
    intro visit
    rw [ofDepth, ofDepth, apply_ite (List.map (under base))]
    rfl
  have field : ∀ env visit, ofField env (.under base visit) =
      (ofField env visit).map (under base) :=
    fun env visit ↦ ofConditions_append base _ _ _
  have annex : ∀ env, ofAnnex env (base ++ path) =
      fun annex ↦ (ofAnnex env path annex).map (under base) := by
    intro env
    funext annex
    rw [ofAnnex, List.append_assoc, ofConditions_append base, ofAnnex]
  unfold ofForm
  dsimp only
  rw [List.append_assoc base path, Field.visitsAll_append base, ofLogic_append base, annex]
  simp only [List.flatMap_map, depth, field, List.map_append, List.map_flatMap]

mutual

theorem ofArtifact_append (base path : IssuePath) : ∀ artifact : Artifact,
    ofArtifact maxDepth (base ++ path) artifact =
      (ofArtifact maxDepth path artifact).map (under base)
  | .form form => by
    rw [ofArtifact, ofArtifact, ofForm_append base]
  | .bundle name title logic contents => by
    rw [ofArtifact, ofArtifact, ofLogic_append base, ofItems_append base, List.map_append]
  | .document enclosure => by
    rw [ofArtifact, ofArtifact, List.map_nil]
  | .checklist enclosure => by
    rw [ofArtifact, ofArtifact, List.map_nil]

theorem ofItem_append (base : IssuePath) (env : Environment) (path : IssuePath) : ∀ item : Item,
    ofItem maxDepth env (base ++ path) item = (ofItem maxDepth env path item).map (under base)
  | .inline key condition artifact => by
    rw [ofItem, ofItem, List.append_assoc, List.append_assoc, ofCondition_append base,
      ofArtifact_append base, List.map_append]
  | .path key condition target => by
    rw [ofItem, ofItem, List.append_assoc, ofCondition_append base]
  | .registry key condition slug => by
    rw [ofItem, ofItem, List.append_assoc, ofCondition_append base]

theorem ofItems_append (base : IssuePath) (env : Environment) (path : IssuePath) (place : Nat) :
    ∀ items : List Item, ofItems maxDepth env (base ++ path) place items =
      (ofItems maxDepth env path place items).map (under base)
  | [] => by
    rw [ofItems, ofItems, List.map_nil]
  | item :: rest => by
    rw [ofItems, ofItems, List.append_assoc, ofItem_append base, ofItems_append base,
      List.map_append]

end

end Issue

end FormRules
