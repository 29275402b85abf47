import FormRules.Proofs.Scope.Fixpoint

/-!
# Names in the finished environment

If no key has a dot, a name that a rule outside cycles adds stands in the finished environment as
its rule is inferred there.
-/

namespace FormRules.Environment

variable {env env' : Environment} {fields : Fields} {logic : LogicSection} {maxDepth : Nat}
  {key name : String} {entry : LogicEntry}

theorem inferEntry_eq_of_agree (h : Agree entry.value.variableNames env env') :
    env.inferEntry entry = env'.inferEntry entry := by
  unfold inferEntry
  cases value : entry.value with
  | literal value => rfl
  | expression text =>
    have leaf := LogicEntry.mem_expressions_of_expression value
    exact inferRule_eq_of_agree (h.mono fun name ↦ mem_variableNames leaf)
  | object properties => rfl

theorem inferProperty_eq_of_agree (h : Agree entry.value.variableNames env env')
    (property : String × ValueType) :
    env.inferProperty entry property = env'.inferProperty entry property := by
  have own := inferEntry_eq_of_agree h
  unfold inferProperty
  cases value : entry.value with
  | literal value => simp only [own]
  | expression text => simp only [own]
  | object properties =>
    dsimp only
    cases given : properties.get? property.1 with
    | none => rfl
    | some text =>
      have leaf := LogicEntry.mem_expressions_of_object value given
      exact inferRule_eq_of_agree (h.mono fun name ↦ mem_variableNames leaf)

/-- The names that a rule outside cycles adds are known as it is inferred in the end. -/
theorem get?_build_of_acyclic (plain : logic.Plain) (found : logic.get? key = some entry)
    (acyclic : key ∉ (LogicSection.order logic).cyclic) {inference : Inference}
    (h : (name, inference) ∈ ruleNames key entry ((build fields logic maxDepth).inferEntry entry)
      ((build fields logic maxDepth).inferProperty entry)) :
    (build fields logic maxDepth).get? name = some inference := by
  obtain ⟨pre, post, turn⟩ := exists_turn found acyclic
  have agree : Agree entry.value.variableNames (upTo fields logic maxDepth pre)
      (build fields logic maxDepth) := turn.agree plain
  have properties := funext (inferProperty_eq_of_agree agree)
  rw [← inferEntry_eq_of_agree agree, ← properties] at h
  exact turn.get?_build plain h

theorem get?_build_key (plain : logic.Plain) (found : logic.get? key = some entry)
    (acyclic : key ∉ (LogicSection.order logic).cyclic) :
    (build fields logic maxDepth).get? key =
      some ((build fields logic maxDepth).inferEntry entry) :=
  get?_build_of_acyclic plain found acyclic List.mem_cons_self

theorem get?_build_property (plain : logic.Plain) (found : logic.get? key = some entry)
    (acyclic : key ∉ (LogicSection.order logic).cyclic) {property : String × ValueType}
    (member : property ∈ entry.type.properties) :
    (build fields logic maxDepth).get? (Field.within key property.1) =
      some ((build fields logic maxDepth).inferProperty entry property) := by
  apply get?_build_of_acyclic plain found acyclic
  exact List.mem_cons_of_mem _ (List.mem_map_of_mem member)

end FormRules.Environment
