import FormRules.Proofs.Scope.Rearranged
import FormRules.Proofs.Validation.Artifact

/-!
# Validation of rules in another order

The issues of an expression depend on what is known of names and on nothing else of an environment.
A form has therefore the same issues whatever the order of its rules, though not in the same order.
-/

namespace FormRules

/-- Two environments with the same functions that tell the same of every name. -/
structure Environment.Alike (env env' : Environment) : Prop where
  functions : env.functions = env'.functions
  get? : ∀ name, env.get? name = env'.get? name

namespace Environment.Alike

variable {env env' : Environment}

theorem agree (h : Alike env env') (names : List String) : Agree names env env' := by
  refine ⟨h.functions, ?_⟩
  intro name member
  rw [known, known, h.get?]

theorem knows (h : Alike env env') (name : String) : env.knows name = env'.knows name := by
  have contained : env.contains name = env'.contains name := congrArg Option.isSome (h.get? name)
  rw [Environment.knows, Environment.knows, contained, (h.agree []).function?]

end Environment.Alike

namespace Issue

open Environment

variable {env env' : Environment}

theorem ofExpression_eq_of_alike (h : Alike env env') : ofExpression env = ofExpression env' := by
  funext path text ofType
  unfold ofExpression
  cases Expr.parse text with
  | error fault => rfl
  | ok e =>
    dsimp only
    rw [Expr.infer_eq_of_agree e (h.agree _)]
    unfold ofVariables
    simp only [h.knows]

theorem ofCondition_eq_of_alike (h : Alike env env') : ofCondition env = ofCondition env' := by
  funext path condition
  unfold ofCondition
  rw [ofExpression_eq_of_alike h]

theorem ofConditions_eq_of_alike (h : Alike env env') : ofConditions env = ofConditions env' := by
  funext path required visible
  rw [ofConditions, ofConditions, ofCondition_eq_of_alike h]

theorem ofEntry_eq_of_alike (h : Alike env env') : ofEntry env = ofEntry env' := by
  have leaves : ofLeaf env = ofLeaf env' := by
    funext entry cyclic valuePath property text
    unfold ofLeaf
    rw [ofExpression_eq_of_alike h]
  funext entry cyclic valuePath
  unfold ofEntry
  rw [leaves]

theorem ofLogic_perm {logic logic' : LogicSection} {order order' : Order String}
    (base : IssuePath) (h : Alike env env') (perm : logic.entries.Perm logic'.entries)
    (cyclic : order.cyclic.Perm order'.cyclic) :
    (ofLogic env order logic base).Perm (ofLogic env' order' logic' base) := by
  have rules : ofRule env order base = ofRule env' order' base := by
    funext rule
    have on_cycle : order.isCyclic rule.1 = order'.isCyclic rule.1 :=
      decide_eq_decide.2 cyclic.mem_iff
    rw [ofRule, ofRule, ofEntry_eq_of_alike h, on_cycle]
  rw [ofLogic, ofLogic, rules]
  exact (cyclic.map _).append (perm.flatMap_right _)

end Issue

namespace LogicSection

variable {logic logic' : LogicSection}

theorem cyclic_perm (perm : logic.entries.Perm logic'.entries) :
    (order logic).cyclic.Perm (order logic').cyclic := by
  apply (List.perm_ext_iff_of_nodup (Graph.nodup_cyclic _) (Graph.nodup_cyclic _)).2
  intro key
  exact mem_cyclic_iff_of_perm perm

end LogicSection

/-- A form has the same issues whatever the order of its rules. -/
theorem Issue.ofForm_perm {form : Form} {logic : LogicSection} (plain : form.logic.Plain)
    (perm : form.logic.entries.Perm logic.entries) (maxDepth : Nat) (base : IssuePath) :
    (ofForm maxDepth base form).Perm (ofForm maxDepth base { form with logic := logic }) := by
  have alike : (Environment.build form.fields form.logic maxDepth).Alike
      (Environment.build form.fields logic maxDepth) := by
    refine ⟨?_, Environment.get?_build_of_perm plain perm⟩
    rw [Environment.functions_build, Environment.functions_build]
  have fields : ofField (Environment.build form.fields form.logic maxDepth) =
      ofField (Environment.build form.fields logic maxDepth) := by
    funext visit
    rw [ofField, ofField, ofConditions_eq_of_alike alike]
  have annexes : ofAnnex (Environment.build form.fields form.logic maxDepth) =
      ofAnnex (Environment.build form.fields logic maxDepth) := by
    funext path annex
    rw [ofAnnex, ofAnnex, ofConditions_eq_of_alike alike]
  have rules := ofLogic_perm base alike perm (LogicSection.cyclic_perm perm)
  unfold ofForm
  dsimp only
  rw [fields, annexes]
  exact ((rules.append_left _).append_right _).append_right _

/-- The order of rules without dots in their keys does not matter: not to what is known of a name,
not to which rules are on cycles, and not to which issues a form has. -/
theorem Form.rule_order_irrelevant (form : Form) (logic : LogicSection) (maxDepth : Nat)
    (plain : ∀ key ∈ form.logic.keys, '.' ∉ key.toList ∧ key ≠ fieldRoot)
    (perm : form.logic.entries.Perm logic.entries) :
    (∀ name, (Environment.build form.fields form.logic maxDepth).get? name =
      (Environment.build form.fields logic maxDepth).get? name) ∧
    (∀ key, key ∈ (LogicSection.order form.logic).cyclic ↔
      key ∈ (LogicSection.order logic).cyclic) ∧
    ((Artifact.form form).validate ⟨true, maxDepth⟩).Perm
      ((Artifact.form { form with logic := logic }).validate ⟨true, maxDepth⟩) := by
  refine ⟨?_, ?_, ?_⟩
  · intro name
    exact Environment.get?_build_of_perm plain perm name
  · intro key
    exact LogicSection.mem_cyclic_iff_of_perm perm
  · rw [Artifact.validate_eq_ofArtifact, Artifact.validate_eq_ofArtifact, Issue.ofArtifact,
      Issue.ofArtifact]
    exact Issue.ofForm_perm plain perm maxDepth []

/-- A rule on a cycle, an object that reads it and an unknown name, and a reader of the object. -/
theorem Form.rule_order_irrelevant_beside_cycle :
    let total : String × LogicEntry :=
      ("total", ⟨.money, none, none, .object (.ofList [("amount", "again + missing")])⟩)
    let again : String × LogicEntry := ("again", ⟨.boolean, none, none, .expression "not again"⟩)
    let ready : String × LogicEntry :=
      ("ready", ⟨.number, none, none, .expression "total.amount > 1"⟩)
    let form : Form := ⟨none, none, .empty, [], .ofList [ready, again, total]⟩
    let logic : LogicSection := .ofList [total, ready, again]
    form.logic.entries.Perm logic.entries ∧
    (∀ name, (Environment.build form.fields form.logic defaultMaxDepth).get? name =
      (Environment.build form.fields logic defaultMaxDepth).get? name) ∧
    (∀ key, key ∈ (LogicSection.order form.logic).cyclic ↔
      key ∈ (LogicSection.order logic).cyclic) ∧
    ((Artifact.form form).validate ⟨true, defaultMaxDepth⟩).Perm
      ((Artifact.form { form with logic := logic }).validate ⟨true, defaultMaxDepth⟩) := by
  intro total again ready form logic
  have plain : ∀ key ∈ form.logic.keys, '.' ∉ key.toList ∧ key ≠ fieldRoot := by decide +kernel
  have perm : form.logic.entries.Perm logic.entries := by decide +kernel
  exact ⟨perm, Form.rule_order_irrelevant form logic defaultMaxDepth plain perm⟩

end FormRules
