import FormRules.Proofs.Scope.Finished
import FormRules.Proofs.Validation.WellFormed

/-!
# Trust in declared types

What the finished environment tells of a rule is inferred there, and that is what validation
compares with the declared type. So once validation has found nothing, every type that is known of a
rule or of one of its properties is one that the declared type accepts.
-/

namespace FormRules

theorem ValueType.accepts_self (type : ValueType) : type.accepts type = true := by
  simp [accepts]

theorem FieldType.property?_eq_some (type : FieldType) :
    ∀ property ∈ type.properties, type.property? property.1 = some property.2 := by
  cases type <;> decide +kernel

/-- Nothing is known, or a type that is accepted. -/
def Inference.Within (known : Inference) (declared : ValueType) : Prop :=
  known = .unknown ∨ declared.accepts known.type = true

namespace Environment

variable {env : Environment} {entry : LogicEntry} {text : String} {declared : ValueType}

/-- What an expression tells about its rule is of the declared type if the expression is sound. -/
theorem inferRule_within (known : declared ≠ .unknown)
    (sound : Expr.Sound env text fun type ↦ declared = .unknown ∨ declared.accepts type = true) :
    (env.inferRule text).Within declared := by
  obtain ⟨e, parsed, -, right⟩ := sound
  have inferred : Expr.inferText env text = .ok (e.infer env) := by
    rw [Expr.inferText, parsed]
    rfl
  rw [inferRule, inferred]
  dsimp only
  split
  · next confident => exact .inr ((right confident).resolve_left known)
  · exact .inl rfl

theorem inferEntry_within (known : entry.type.valueType ≠ .unknown) (sound : entry.Sound env) :
    (env.inferEntry entry).Within entry.type.valueType := by
  unfold inferEntry
  cases value : entry.value with
  | literal literal =>
    have boolean := (sound.literal literal value).resolve_right known
    rw [boolean]
    exact .inr (ValueType.accepts_self _)
  | expression text =>
    have leaf := LogicEntry.mem_expressions_of_expression value
    exact inferRule_within known (sound.expression none text leaf)
  | object properties =>
    dsimp only
    split
    · exact .inr (ValueType.accepts_self _)
    · exact .inl rfl

theorem inferProperty_within {property : String × ValueType}
    (member : property ∈ entry.type.properties) (sound : entry.Sound env) :
    (env.inferProperty entry property).Within property.2 := by
  have declared : entry.declaredType (some property.1) = property.2 := by
    rw [LogicEntry.declaredType, entry.type.property?_eq_some property member]
    rfl
  unfold inferProperty
  cases value : entry.value with
  | object properties =>
    dsimp only
    cases given : properties.get? property.1 with
    | none => exact .inl rfl
    | some text =>
      have leaf := LogicEntry.mem_expressions_of_object value given
      have right := sound.expression (some property.1) text leaf
      rw [declared] at right
      exact inferRule_within (entry.type.properties_ne_unknown property member) right
  | literal literal =>
    dsimp only
    split
    · exact .inr (ValueType.accepts_self _)
    · exact .inl rfl
  | expression text =>
    dsimp only
    split
    · exact .inr (ValueType.accepts_self _)
    · exact .inl rfl

end Environment

/-- If validation finds nothing, what the environment of an artifact tells of a rule with a declared
type, and of each property of its declared type, is nothing or a type that is accepted there. -/
theorem Artifact.declared_types_hold (artifact : Artifact) (options : Options)
    (plain : ∀ key ∈ artifact.logic.keys, '.' ∉ key.toList ∧ key ≠ fieldRoot)
    (valid : artifact.validate options = []) (key : String) (entry : LogicEntry)
    (found : artifact.logic.get? key = some entry) :
    (entry.type.valueType ≠ .unknown → ∃ known,
      (Environment.build artifact.fields artifact.logic options.maxDepth).get? key = some known ∧
        known.Within entry.type.valueType) ∧
    ∀ property ∈ entry.type.properties, ∃ known,
      (Environment.build artifact.fields artifact.logic options.maxDepth).get?
        (Field.within key property.1) = some known ∧ known.Within property.2 := by
  have well_formed : artifact.WellFormed options.maxDepth :=
    (Issue.ofArtifact_eq_nil_iff _ _ _).1 ((artifact.validate_eq_nil_iff options).1 valid) _ .self
  obtain ⟨-, rules, -⟩ := Artifact.wellFormed_iff.1 well_formed
  have acyclic : key ∉ (LogicSection.order artifact.logic).cyclic :=
    mt Graph.mem_cyclic_iff.1 (rules.acyclic key)
  have sound : entry.Sound (artifact.environment options.maxDepth) := rules.entry key entry found
  constructor
  · intro known
    exact ⟨_, Environment.get?_build_key plain found acyclic,
      Environment.inferEntry_within known sound⟩
  · intro property member
    exact ⟨_, Environment.get?_build_property plain found acyclic member,
      Environment.inferProperty_within member sound⟩

/-- A form whose rules have all kinds of values: a literal, an object, an expression for a whole
amount, and a number where an integer is declared. -/
theorem Artifact.declared_types_hold_of_each_kind :
    let price : Field := ⟨.money, none, none, none, none, []⟩
    let double : LogicValue := .object (.ofList
      [("amount", "fields.price.value.amount * 2"), ("currency", "copy.currency")])
    let artifact : Artifact := .form ⟨none, none, .ofEntries [("price", price)], [], .ofList
      [("always", ⟨.boolean, none, none, .literal true⟩), ("twice", ⟨.money, none, none, double⟩),
        ("copy", ⟨.money, none, none, .expression "fields.price.value"⟩),
        ("stars", ⟨.rating, none, none, .expression "twice.amount + 1"⟩)]⟩
    artifact.validate {} = [] ∧ ∀ key ∈ ["always", "twice", "copy", "stars"], ∃ entry,
      artifact.logic.get? key = some entry ∧
        (∃ known, (Environment.build artifact.fields artifact.logic defaultMaxDepth).get? key =
          some known ∧ known.Within entry.type.valueType) ∧
        ∀ property ∈ entry.type.properties, ∃ known,
          (Environment.build artifact.fields artifact.logic defaultMaxDepth).get?
            (Field.within key property.1) = some known ∧ known.Within property.2 := by
  intro price double artifact
  have plain : ∀ key ∈ artifact.logic.keys, '.' ∉ key.toList ∧ key ≠ fieldRoot := by
    decide +kernel
  have valid : artifact.validate {} = [] := by decide +kernel
  have law := Artifact.declared_types_hold artifact {} plain valid
  refine ⟨valid, ?_⟩
  intro key listed
  have declared : key ∈ artifact.logic.keys := by
    revert key
    decide +kernel
  obtain ⟨entry, found⟩ := OrderedMap.mem_keys_iff.1 declared
  have typed : ∀ rule ∈ artifact.logic.entries, rule.2.type.valueType ≠ .unknown := by
    decide +kernel
  have known := typed (key, entry) (OrderedMap.mem_entries_iff.2 found)
  exact ⟨entry, found, (law key entry found).1 known, (law key entry found).2⟩

end FormRules
