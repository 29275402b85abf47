import FormRules.Proofs.Graph.Order
import FormRules.Proofs.Keyed.OrderedMap
import FormRules.Proofs.Validation.Form

/-!
# Checks that find nothing

An expression, a condition, a rule and a section of rules each have no issues exactly if they are
sound, which says what the check looks for without saying how. A walk over fields visits the fields
that are reached through fieldsets only, each with the room that is left below those fieldsets.
-/

namespace FormRules

/-! ## Expressions -/

/-- A text spells an expression that uses names in scope, and what is known of its type is right. -/
def Expr.Sound (env : Environment) (text : String) (right : ValueType → Prop) : Prop :=
  ∃ e, parse text = .ok e ∧ (∀ name ∈ e.variableNames, env.knows name = true) ∧
    ((e.infer env).isConfident = true → right (e.infer env).type)

/-- A condition is fixed or spells an expression that is not known to be anything but a truth
value. -/
def Condition.Sound (env : Environment) (condition : Option Condition) : Prop :=
  ∀ text, condition = some (.expression text) → Expr.Sound env text (· = .boolean)

/-- A literal is a truth value by its declared type, and each expression stands for the value or a
property of the declared type and may have the type that is declared for it. -/
structure LogicEntry.Sound (env : Environment) (entry : LogicEntry) : Prop where
  literal : ∀ value, entry.value = .literal value →
    entry.type.valueType = .boolean ∨ entry.type.valueType = .unknown
  property : ∀ property text, (some property, text) ∈ entry.value.expressions →
    property ∈ entry.type.properties.map Prod.fst
  expression : ∀ property text, (property, text) ∈ entry.value.expressions →
    Expr.Sound env text fun type ↦
      entry.declaredType property = .unknown ∨ (entry.declaredType property).accepts type = true

/-- No rule depends on itself, and every rule is sound. -/
structure LogicSection.Sound (env : Environment) (logic : LogicSection) : Prop where
  acyclic : ∀ key, ¬(dependencies logic).OnCycle key
  entry : ∀ key entry, logic.get? key = some entry → entry.Sound env

theorem FieldType.isSome_property?_iff {type : FieldType} {property : String} :
    (type.property? property).isSome = true ↔ property ∈ type.properties.map Prod.fst := by
  unfold property?
  induction type.properties with
  | nil => simp
  | cons first rest ih =>
    rw [List.lookup_cons, List.map_cons, List.mem_cons, ← ih]
    by_cases same : property = first.1
    · simp [same]
    · have other : (property == first.1) = false := by simp [same]
      rw [other, or_iff_right same]

namespace Issue

variable {env : Environment} {path base : IssuePath} {text : String}

theorem ofVariables_eq_nil_iff {e : Expr} :
    ofVariables env path text e = [] ↔ ∀ name ∈ e.variableNames, env.knows name = true := by
  simp [ofVariables]

theorem ofExpression_eq_nil_iff {ofType : Inference → List Issue} (right : ValueType → Prop)
    (h : ∀ found, ofType found = [] ↔ (found.isConfident = true → right found.type)) :
    ofExpression env path text ofType = [] ↔ Expr.Sound env text right := by
  unfold ofExpression Expr.Sound
  cases Expr.parse text with
  | error fault => simp
  | ok e => simp [ofVariables_eq_nil_iff, h]

theorem ofCondition_eq_nil_iff {condition : Option Condition} :
    ofCondition env path condition = [] ↔ Condition.Sound env condition := by
  have boolean : ∀ text found, ofBoolean path text found = [] ↔
      (found.isConfident = true → found.type = .boolean) := by
    intro text found
    simp [ofBoolean]
  match condition with
  | none | some (.literal _) => simp [ofCondition, Condition.Sound]
  | some (.expression text) =>
    simp [ofCondition, Condition.Sound, ofExpression_eq_nil_iff (· = .boolean) (boolean text)]

theorem ofConditions_eq_nil_iff {required visible : Option Condition} :
    ofConditions env path required visible = [] ↔
      Condition.Sound env required ∧ Condition.Sound env visible := by
  simp [ofConditions, ofCondition_eq_nil_iff]

/-! ## Rules -/

theorem ofLeaf_eq_nil_iff {entry : LogicEntry} {property : Option String} :
    ofLeaf env entry false path property text = [] ↔
      (∀ name, property = some name → name ∈ entry.type.properties.map Prod.fst) ∧
      Expr.Sound env text fun type ↦
        entry.declaredType property = .unknown ∨
          (entry.declaredType property).accepts type = true := by
  have declared : ∀ path found, ofDeclared (entry.declaredType property) path text found = [] ↔
      (found.isConfident = true → entry.declaredType property = .unknown ∨
        (entry.declaredType property).accepts found.type = true) := by
    intro path found
    simp [ofDeclared]
    tauto
  have known : ∀ path, ofProperty entry.type path text property = [] ↔
      ∀ name, property = some name → name ∈ entry.type.properties.map Prod.fst := by
    intro path
    cases property with
    | none => simp [ofProperty]
    | some name =>
      simp only [ofProperty, Option.some.injEq, forall_eq', ← FieldType.isSome_property?_iff]
      cases entry.type.property? name <;> simp
  unfold ofLeaf
  rw [List.append_eq_nil_iff, known]
  exact and_congr_right' (ofExpression_eq_nil_iff _ (declared _))

theorem ofEntry_literal_eq_nil_iff {entry : LogicEntry} {value : Bool} {cyclic : Bool}
    (literal : entry.value = .literal value) : ofEntry env entry cyclic path = [] ↔
      entry.type.valueType = .boolean ∨ entry.type.valueType = .unknown := by
  simp only [ofEntry, literal, LogicEntry.declaredType]
  by_cases boolean : entry.type.valueType = .boolean
  · simp [boolean]
  · by_cases unknown : entry.type.valueType = .unknown <;> simp [boolean, unknown]

theorem ofEntry_eq_flatMap {entry : LogicEntry} {cyclic : Bool}
    (h : ∀ value, entry.value ≠ .literal value) : ofEntry env entry cyclic path =
      entry.value.expressions.flatMap fun leaf ↦
        ofLeaf env entry cyclic path leaf.1 leaf.2 := by
  unfold ofEntry
  cases value : entry.value with
  | literal value' => exact absurd value (h value')
  | expression text => rfl
  | object properties => rfl

theorem ofEntry_eq_nil_iff {entry : LogicEntry} :
    ofEntry env entry false path = [] ↔ entry.Sound env := by
  by_cases literal : ∃ value, entry.value = .literal value
  · obtain ⟨value, literal⟩ := literal
    have leafless : ∀ leaf, leaf ∉ entry.value.expressions := by
      simp [literal, LogicValue.expressions]
    rw [ofEntry_literal_eq_nil_iff literal]
    constructor
    · intro boolean
      exact ⟨fun _ _ ↦ boolean, fun _ _ leaf ↦ absurd leaf (leafless _),
        fun _ _ leaf ↦ absurd leaf (leafless _)⟩
    · intro sound
      exact sound.literal value literal
  · have other : ∀ value, entry.value ≠ .literal value := fun value same ↦ literal ⟨value, same⟩
    rw [ofEntry_eq_flatMap other, List.flatMap_eq_nil_iff]
    constructor
    · intro quiet
      refine ⟨fun value same ↦ absurd same (other value), ?_, ?_⟩
      · intro property text leaf
        exact (ofLeaf_eq_nil_iff.1 (quiet _ leaf)).1 property rfl
      · intro property text leaf
        exact (ofLeaf_eq_nil_iff.1 (quiet _ leaf)).2
    · rintro sound ⟨property, text⟩ leaf
      apply ofLeaf_eq_nil_iff.2
      refine ⟨?_, sound.expression property text leaf⟩
      rintro name rfl
      exact sound.property name text leaf

theorem ofLogic_eq_nil_iff {logic : LogicSection} :
    ofLogic env (LogicSection.order logic) logic base = [] ↔ logic.Sound env := by
  have no_cycle : (LogicSection.order logic).cyclic = [] ↔
      ∀ key, ¬(LogicSection.dependencies logic).OnCycle key := by
    rw [List.eq_nil_iff_forall_not_mem]
    exact forall_congr' fun key ↦ not_congr Graph.mem_cyclic_iff
  unfold ofLogic
  rw [List.append_eq_nil_iff, ofCycles, List.map_eq_nil_iff, List.flatMap_eq_nil_iff]
  constructor
  · rintro ⟨straight, quiet⟩
    refine ⟨no_cycle.1 straight, ?_⟩
    intro key entry found
    have nothing := quiet (key, entry) (OrderedMap.mem_entries_iff.2 found)
    simp only [ofRule, Order.isCyclic, straight, List.not_mem_nil, decide_false] at nothing
    exact ofEntry_eq_nil_iff.1 nothing
  · intro sound
    have straight := no_cycle.2 sound.acyclic
    refine ⟨straight, ?_⟩
    rintro ⟨key, entry⟩ member
    simp only [ofRule, Order.isCyclic, straight, List.not_mem_nil, decide_false]
    exact ofEntry_eq_nil_iff.2 (sound.entry key entry (OrderedMap.mem_entries_iff.1 member))

end Issue

end FormRules
