import FormRules.Proofs.Scope.Contents
import FormRules.Proofs.Validation.Artifact
import FormRules.Proofs.Validation.Sound
import FormRules.Proofs.Validation.Visited

/-!
# Well-formed artifacts

What validation accepts, said without its walks: how deep fieldsets are nested, which texts are
expressions of an artifact, which names they may use and which types they may have. Validation finds
nothing exactly if the artifact and all artifacts within it are well formed in this sense.
-/

namespace FormRules

namespace Artifact

/-- A condition of an artifact on a field that is entered, on an annex or on an item. -/
inductive HasCondition (maxDepth : Nat) : Artifact → Option Condition → Prop
  | required {form : Form} {outer : List String} {id : String} {field : Field} :
    Field.Reached form.fields.entries outer id field → outer.length ≤ maxDepth →
      HasCondition maxDepth (.form form) field.required
  | visible {form : Form} {outer : List String} {id : String} {field : Field} :
    Field.Reached form.fields.entries outer id field → outer.length ≤ maxDepth →
      HasCondition maxDepth (.form form) field.visible
  | annexRequired {form : Form} {annex : Annex} :
    annex ∈ form.annexes → HasCondition maxDepth (.form form) annex.required
  | annexVisible {form : Form} {annex : Annex} :
    annex ∈ form.annexes → HasCondition maxDepth (.form form) annex.visible
  | item {name title : Option String} {logic : LogicSection} {contents : List Item} {item : Item} :
    item ∈ contents → HasCondition maxDepth (.bundle name title logic contents) item.condition

/-- A text is an expression of an artifact: a condition, or the value of a rule or of one of its
properties. -/
inductive HasExpression (maxDepth : Nat) (artifact : Artifact) (text : String) : Prop
  | condition : HasCondition maxDepth artifact (some (.expression text)) →
    HasExpression maxDepth artifact text
  | rule {key : String} {entry : LogicEntry} {property : Option String} :
    artifact.logic.get? key = some entry → (property, text) ∈ entry.value.expressions →
      HasExpression maxDepth artifact text

/-- The names that the expressions of an artifact may use. -/
inductive InScope (maxDepth : Nat) (artifact : Artifact) : String → Prop
  | builtin {signature : Signature} :
    signature ∈ Signature.builtins → InScope maxDepth artifact signature.name
  | field {outer : List String} {id : String} {field : Field} :
    Field.Reached artifact.fields.entries outer id field → outer.length ≤ maxDepth →
      field.type ≠ .fieldset → InScope maxDepth artifact (Field.valuePath fieldRoot outer id)
  | fieldProperty {outer : List String} {id : String} {field : Field}
    {property : String × ValueType} :
    Field.Reached artifact.fields.entries outer id field → outer.length ≤ maxDepth →
      field.type ≠ .fieldset → property ∈ field.type.properties →
        InScope maxDepth artifact
          (Field.within (Field.valuePath fieldRoot outer id) property.1)
  | rule {key : String} : key ∈ artifact.logic.keys → InScope maxDepth artifact key
  | ruleProperty {key : String} {entry : LogicEntry} {property : String × ValueType} :
    artifact.logic.get? key = some entry → property ∈ entry.type.properties →
      InScope maxDepth artifact (Field.within key property.1)

/-- The environment of an artifact. A bundle has no fields of its own. -/
def environment (maxDepth : Nat) (artifact : Artifact) : Environment :=
  .build artifact.fields artifact.logic maxDepth

/-- What has to hold of an artifact apart from those within it. -/
structure WellFormed (maxDepth : Nat) (artifact : Artifact) : Prop where
  /-- No fieldset stands below as many fieldsets as may be entered. -/
  shallow : ∀ outer id field, Field.Reached artifact.fields.entries outer id field →
    outer.length = maxDepth → field.type ≠ .fieldset
  /-- No rule depends on itself. -/
  acyclic : ∀ key, ¬(LogicSection.dependencies artifact.logic).OnCycle key
  parses : ∀ text, artifact.HasExpression maxDepth text → ∃ e, Expr.parse text = .ok e
  names : ∀ text e, artifact.HasExpression maxDepth text → Expr.parse text = .ok e →
    ∀ name ∈ e.variableNames, artifact.InScope maxDepth name
  /-- An object gives expressions for properties of its declared type only. -/
  properties : ∀ key entry property text, artifact.logic.get? key = some entry →
    (some property, text) ∈ entry.value.expressions →
      property ∈ entry.type.properties.map Prod.fst
  /-- A literal stands under a declared truth value or an unknown type. -/
  literals : ∀ key entry value, artifact.logic.get? key = some entry →
    entry.value = .literal value →
      entry.type.valueType = .boolean ∨ entry.type.valueType = .unknown
  /-- What is known of the type of a rule or of a property agrees with its declared type. -/
  declared : ∀ key entry property text e, artifact.logic.get? key = some entry →
    (property, text) ∈ entry.value.expressions → Expr.parse text = .ok e →
      (e.infer (artifact.environment maxDepth)).isConfident = true →
        entry.declaredType property = .unknown ∨
          (entry.declaredType property).accepts
            (e.infer (artifact.environment maxDepth)).type = true
  /-- No condition is known to be anything but a truth value. -/
  conditions : ∀ text e, artifact.HasCondition maxDepth (some (.expression text)) →
    Expr.parse text = .ok e → (e.infer (artifact.environment maxDepth)).isConfident = true →
      (e.infer (artifact.environment maxDepth)).type = .boolean

/-- An artifact is another one or stands within it through items of bundles. -/
inductive Holds : Artifact → Artifact → Prop
  | self {artifact : Artifact} : Holds artifact artifact
  | item {name title : Option String} {logic : LogicSection} {contents : List Item} {key : String}
    {condition : Option Condition} {artifact inner : Artifact} :
    .inline key condition artifact ∈ contents → Holds artifact inner →
      Holds (.bundle name title logic contents) inner

variable {maxDepth : Nat} {artifact : Artifact} {name : String}

theorem knows_environment_iff :
    (artifact.environment maxDepth).knows name = true ↔ artifact.InScope maxDepth name := by
  rw [environment, Environment.knows_build, Fields.mem_keys_types_iff]
  constructor
  · rintro (⟨signature, builtin, rfl⟩ | ⟨outer, id, field, reached, entered, valued, path⟩ |
      ⟨key, entry, found, listed⟩)
    · exact .builtin builtin
    · rcases path with rfl | ⟨property, member, rfl⟩
      · exact .field reached entered valued
      · exact .fieldProperty reached entered valued member
    · rcases List.mem_cons.1 listed with rfl | listed
      · exact .rule (OrderedMap.mem_keys_iff.2 ⟨entry, found⟩)
      · obtain ⟨property, member, rfl⟩ := List.mem_map.1 listed
        exact .ruleProperty found member
  · intro scope
    cases scope with
    | builtin builtin => exact .inl ⟨_, builtin, rfl⟩
    | field reached entered valued =>
      exact .inr (.inl ⟨_, _, _, reached, entered, valued, .inl rfl⟩)
    | fieldProperty reached entered valued member =>
      exact .inr (.inl ⟨_, _, _, reached, entered, valued, .inr ⟨_, member, rfl⟩⟩)
    | rule declared =>
      obtain ⟨entry, found⟩ := OrderedMap.mem_keys_iff.1 declared
      exact .inr (.inr ⟨_, entry, found, List.mem_cons_self⟩)
    | ruleProperty found member =>
      exact .inr (.inr ⟨_, _, found, List.mem_cons_of_mem _ (List.mem_map_of_mem member)⟩)

/-- An artifact is well formed if its fieldsets are nested well and its rules and conditions are
sound in its environment. -/
theorem wellFormed_iff : artifact.WellFormed maxDepth ↔
    (∀ outer id field, Field.Reached artifact.fields.entries outer id field →
      outer.length = maxDepth → field.type ≠ .fieldset) ∧
    artifact.logic.Sound (artifact.environment maxDepth) ∧
    ∀ condition, artifact.HasCondition maxDepth condition →
      Condition.Sound (artifact.environment maxDepth) condition := by
  constructor
  · intro h
    have sound : ∀ text e, artifact.HasExpression maxDepth text → Expr.parse text = .ok e →
        ∀ name ∈ e.variableNames, (artifact.environment maxDepth).knows name = true := by
      intro text e has parsed name used
      exact knows_environment_iff.2 (h.names text e has parsed name used)
    refine ⟨h.shallow, ⟨h.acyclic, ?_⟩, ?_⟩
    · intro key entry found
      refine ⟨fun value ↦ h.literals key entry value found,
        fun property text ↦ h.properties key entry property text found, ?_⟩
      intro property text leaf
      have has : artifact.HasExpression maxDepth text := .rule found leaf
      obtain ⟨e, parsed⟩ := h.parses text has
      have declared := h.declared key entry property text e found leaf parsed
      exact ⟨e, parsed, sound text e has parsed, declared⟩
    · rintro condition has text rfl
      obtain ⟨e, parsed⟩ := h.parses text (.condition has)
      exact ⟨e, parsed, sound text e (.condition has) parsed, h.conditions text e has parsed⟩
  · rintro ⟨shallow, rules, conditions⟩
    -- What is said of an expression is said of the only tree that its text spells.
    have expression : ∀ text, artifact.HasExpression maxDepth text → ∃ right,
        Expr.Sound (artifact.environment maxDepth) text right := by
      intro text has
      cases has with
      | condition has => exact ⟨_, conditions _ has text rfl⟩
      | rule found leaf => exact ⟨_, (rules.entry _ _ found).expression _ text leaf⟩
    refine ⟨shallow, rules.acyclic, ?_, ?_, ?_, ?_, ?_, ?_⟩
    · intro text has
      obtain ⟨right, e, parsed, -⟩ := expression text has
      exact ⟨e, parsed⟩
    · intro text e has parsed name used
      obtain ⟨right, e', parsed', known, -⟩ := expression text has
      cases parsed.symm.trans parsed'
      exact knows_environment_iff.1 (known name used)
    · intro key entry property text found
      exact (rules.entry key entry found).property property text
    · intro key entry value found
      exact (rules.entry key entry found).literal value
    · intro key entry property text e found leaf parsed
      obtain ⟨e', parsed', -, right⟩ := (rules.entry key entry found).expression property text leaf
      cases parsed.symm.trans parsed'
      exact right
    · intro text e has parsed
      obtain ⟨e', parsed', -, right⟩ := conditions _ has text rfl
      cases parsed.symm.trans parsed'
      exact right

/-- An artifact without fields, rules and conditions is well formed. -/
theorem wellFormed_of_plain (fields : artifact.fields = .empty) (logic : artifact.logic = .empty)
    (conditions : ∀ condition, ¬artifact.HasCondition maxDepth condition) :
    artifact.WellFormed maxDepth := by
  apply wellFormed_iff.2
  refine ⟨?_, ⟨?_, ?_⟩, fun condition has ↦ absurd has (conditions condition)⟩
  · intro outer id field reached
    rw [fields] at reached
    exact absurd reached Field.not_reached_empty
  · intro key cycle
    have declared := cycle.mem_nodes
    rw [logic, LogicSection.nodes_dependencies] at declared
    cases declared
  · intro key entry found
    rw [logic] at found
    cases found

/-! ## Artifacts within artifacts -/

theorem holds_bundle_iff {name title : Option String} {logic : LogicSection}
    {contents : List Item} {inner : Artifact} :
    (bundle name title logic contents).Holds inner ↔ inner = .bundle name title logic contents ∨
      ∃ key condition artifact, .inline key condition artifact ∈ contents ∧
        artifact.Holds inner := by
  constructor
  · intro holds
    cases holds with
    | self => exact .inl rfl
    | item member holds => exact .inr ⟨_, _, _, member, holds⟩
  · rintro (rfl | ⟨key, condition, artifact, member, holds⟩)
    · exact .self
    · exact .item member holds

end Artifact

namespace Issue

open Artifact (wellFormed_iff wellFormed_of_plain holds_bundle_iff)

variable {maxDepth : Nat} {env : Environment} {path base : IssuePath}
  {entries : List (String × Field)}

/-! ## Forms -/

theorem ofDepth_eq_nil_iff :
    (Field.visitsAll maxDepth path entries).flatMap (ofDepth maxDepth) = [] ↔
      ∀ outer id field, Field.Reached entries outer id field → outer.length = maxDepth →
        field.type ≠ .fieldset := by
  rw [List.flatMap_eq_nil_iff]
  constructor
  · rintro quiet outer id field reached deep fieldset
    have reported := quiet _ (reached.mem_visitsAll ((Nat.add_zero _).trans deep))
    simp [ofDepth, fieldset] at reported
  · intro shallow visit visited
    obtain ⟨outer, id, reached, room, -⟩ := Field.exists_reached_of_mem_visitsAll visited
    have entered : ¬(visit.field.type = .fieldset ∧ visit.room = 0) := by
      rintro ⟨fieldset, no_room⟩
      rw [no_room, Nat.add_zero] at room
      exact shallow outer id visit.field reached room fieldset
    exact if_neg entered

theorem ofField_eq_nil_iff : (Field.visitsAll maxDepth path entries).flatMap (ofField env) = [] ↔
    ∀ outer id field, Field.Reached entries outer id field → outer.length ≤ maxDepth →
      Condition.Sound env field.required ∧ Condition.Sound env field.visible := by
  rw [List.flatMap_eq_nil_iff]
  constructor
  · intro quiet outer id field reached entered
    exact ofConditions_eq_nil_iff.1 (quiet _ (reached.mem_visitsAll (Nat.add_sub_of_le entered)))
  · intro sound visit visited
    obtain ⟨outer, id, reached, room, -⟩ := Field.exists_reached_of_mem_visitsAll visited
    have entered : outer.length ≤ maxDepth := Nat.le.intro room
    exact ofConditions_eq_nil_iff.2 (sound outer id visit.field reached entered)

theorem ofAnnex_eq_nil_iff {annexes : List Annex} :
    annexes.zipIdx.flatMap (ofAnnex env base) = [] ↔ ∀ annex ∈ annexes,
      Condition.Sound env annex.required ∧ Condition.Sound env annex.visible := by
  rw [List.flatMap_eq_nil_iff]
  constructor
  · intro quiet annex member
    obtain ⟨place, inside, rfl⟩ := List.getElem_of_mem member
    have placed : (annexes[place], place) ∈ annexes.zipIdx := by
      rw [List.mk_mem_zipIdx_iff_getElem?]
      exact List.getElem?_eq_getElem inside
    exact ofConditions_eq_nil_iff.1 (quiet _ placed)
  · intro sound annex placed
    have member := List.fst_mem_of_mem_zipIdx placed
    exact ofConditions_eq_nil_iff.2 (sound annex.1 member)

theorem ofForm_eq_nil_iff {form : Form} :
    ofForm maxDepth base form = [] ↔ (Artifact.form form).WellFormed maxDepth := by
  unfold ofForm
  rw [wellFormed_iff, List.append_eq_nil_iff, List.append_eq_nil_iff, List.append_eq_nil_iff,
    ofDepth_eq_nil_iff, ofLogic_eq_nil_iff, ofField_eq_nil_iff, ofAnnex_eq_nil_iff]
  constructor
  · rintro ⟨⟨⟨shallow, rules⟩, fields⟩, annexes⟩
    refine ⟨shallow, rules, ?_⟩
    intro condition has
    cases has with
    | required reached entered => exact (fields _ _ _ reached entered).1
    | visible reached entered => exact (fields _ _ _ reached entered).2
    | annexRequired member => exact (annexes _ member).1
    | annexVisible member => exact (annexes _ member).2
  · rintro ⟨shallow, rules, conditions⟩
    refine ⟨⟨⟨shallow, rules⟩, ?_⟩, ?_⟩
    · intro outer id field reached entered
      exact ⟨conditions _ (.required reached entered), conditions _ (.visible reached entered)⟩
    · intro annex member
      exact ⟨conditions _ (.annexRequired member), conditions _ (.annexVisible member)⟩

/-! ## Bundles -/

theorem wellFormed_bundle_iff {name title : Option String} {logic : LogicSection}
    {contents : List Item} : (Artifact.bundle name title logic contents).WellFormed maxDepth ↔
      logic.Sound (.build .empty logic maxDepth) ∧
      ∀ item ∈ contents, Condition.Sound (.build .empty logic maxDepth) item.condition := by
  rw [wellFormed_iff]
  constructor
  · rintro ⟨-, rules, conditions⟩
    exact ⟨rules, fun item member ↦ conditions _ (.item member)⟩
  · rintro ⟨rules, conditions⟩
    refine ⟨?_, rules, ?_⟩
    · intro outer id field reached
      exact absurd reached Field.not_reached_empty
    · intro condition has
      cases has with
      | item member => exact conditions _ member

mutual

theorem ofArtifact_eq_nil_iff (maxDepth : Nat) : ∀ (base : IssuePath) (artifact : Artifact),
    ofArtifact maxDepth base artifact = [] ↔
      ∀ inner, artifact.Holds inner → inner.WellFormed maxDepth
  | base, .form form => by
    rw [ofArtifact, ofForm_eq_nil_iff]
    constructor
    · rintro sound inner (_ | _)
      exact sound
    · intro sound
      exact sound _ .self
  | base, .bundle name title logic contents => by
    have items := ofItems_eq_nil_iff maxDepth (.build .empty logic maxDepth) base 0 contents
    rw [ofArtifact, List.append_eq_nil_iff, ofLogic_eq_nil_iff, items]
    simp only [holds_bundle_iff]
    constructor
    · rintro ⟨rules, sound⟩ inner (rfl | ⟨key, condition, artifact, member, holds⟩)
      · exact wellFormed_bundle_iff.2 ⟨rules, fun item member ↦ (sound item member).1⟩
      · exact (sound _ member).2 key condition artifact rfl inner holds
    · intro sound
      obtain ⟨rules, conditions⟩ := wellFormed_bundle_iff.1 (sound _ (.inl rfl))
      refine ⟨rules, fun item member ↦ ⟨conditions item member, ?_⟩⟩
      rintro key condition artifact rfl inner holds
      exact sound inner (.inr ⟨key, condition, artifact, member, holds⟩)
  | base, .document enclosure => by
    rw [ofArtifact]
    refine iff_of_true rfl ?_
    rintro inner (_ | _)
    exact wellFormed_of_plain rfl rfl fun condition has ↦ by cases has
  | base, .checklist enclosure => by
    rw [ofArtifact]
    refine iff_of_true rfl ?_
    rintro inner (_ | _)
    exact wellFormed_of_plain rfl rfl fun condition has ↦ by cases has

theorem ofItem_eq_nil_iff (maxDepth : Nat) (env : Environment) : ∀ (path : IssuePath) (item : Item),
    ofItem maxDepth env path item = [] ↔ Condition.Sound env item.condition ∧
      ∀ key condition artifact, item = .inline key condition artifact →
        ∀ inner, artifact.Holds inner → inner.WellFormed maxDepth
  | path, .inline key condition artifact => by
    have nested := ofArtifact_eq_nil_iff maxDepth (path ++ [.key "artifact"]) artifact
    rw [ofItem, List.append_eq_nil_iff, ofCondition_eq_nil_iff, nested]
    refine and_congr_right' ⟨?_, fun sound ↦ sound key condition artifact rfl⟩
    rintro sound _ _ _ ⟨⟩
    exact sound
  | path, .path key condition target => by
    rw [ofItem, ofCondition_eq_nil_iff]
    exact (and_iff_left (by rintro _ _ _ ⟨⟩)).symm
  | path, .registry key condition slug => by
    rw [ofItem, ofCondition_eq_nil_iff]
    exact (and_iff_left (by rintro _ _ _ ⟨⟩)).symm

theorem ofItems_eq_nil_iff (maxDepth : Nat) (env : Environment) : ∀ (base : IssuePath)
    (place : Nat) (items : List Item), ofItems maxDepth env base place items = [] ↔
      ∀ item ∈ items, Condition.Sound env item.condition ∧
        ∀ key condition artifact, item = .inline key condition artifact →
          ∀ inner, artifact.Holds inner → inner.WellFormed maxDepth
  | base, place, [] => by
    simp [ofItems]
  | base, place, item :: rest => by
    rw [ofItems, List.append_eq_nil_iff, List.forall_mem_cons, ofItem_eq_nil_iff maxDepth env,
      ofItems_eq_nil_iff maxDepth env]

end

end Issue

/-- Validation, of all issues or of the first, finds none exactly if an artifact and all artifacts
within it are well formed. -/
theorem Artifact.validate_exact (artifact : Artifact) (options : Options) :
    artifact.validate options = [] ↔
      ∀ inner, artifact.Holds inner → inner.WellFormed options.maxDepth := by
  rw [validate_eq_nil_iff]
  exact Issue.ofArtifact_eq_nil_iff options.maxDepth [] artifact

end FormRules
