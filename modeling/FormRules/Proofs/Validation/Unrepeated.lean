import FormRules.Proofs.Expr.Offsets
import FormRules.Proofs.Graph.Order
import FormRules.Proofs.Scope.Chain
import FormRules.Proofs.Validation.Bundled
import FormRules.Proofs.Validation.Walks
import Mathlib.Data.List.Pairwise

/-!
# Nothing is reported twice

Every check is made once at its place, and different places have different paths, whatever fields,
rules and properties are called. At one place the issues differ in their codes or in the variables
that they are about, and an expression that cannot be read has no other issue that comes from
reading it.
-/

namespace FormRules

/-- The expressions of a value stand for different properties. -/
theorem LogicValue.nodup_expressions (value : LogicValue) :
    (value.expressions.map Prod.fst).Nodup := by
  cases value with
  | literal _ => exact List.nodup_nil
  | expression text => exact List.nodup_singleton _
  | object properties =>
    have named : (LogicValue.object properties).expressions.map Prod.fst =
        properties.keys.map some := by
      simp [expressions, OrderedMap.keys, Keyed.keys]
    rw [named]
    exact properties.nodup_keys.map fun _ _ ↦ Option.some.inj

namespace Issue

/-- What is said only of an expression that has been read. -/
def readCodes : List IssueCode := [.unknownVariable, .typeMismatch, .booleanContext]

/-- Two issues do not say the same, and neither says that an expression cannot be read if the other
one comes from reading it. -/
structure Apart (a b : Issue) : Prop where
  differ : ¬(a.code = b.code ∧ a.path = b.path ∧ a.variableName = b.variableName)
  unread : a.code = .syntaxError → b.path = a.path → b.code ∉ readCodes
  unread' : b.code = .syntaxError → a.path = b.path → a.code ∉ readCodes

variable {a b issue : Issue} {env : Environment} {path base : IssuePath} {text : String}
  {maxDepth : Nat}

theorem Apart.symm (h : Apart a b) : Apart b a :=
  ⟨fun ⟨code, path, name⟩ ↦ h.differ ⟨code.symm, path.symm, name.symm⟩, h.unread', h.unread⟩

instance : Std.Symm Apart := ⟨fun _ _ ↦ Apart.symm⟩

theorem apart_of_path_ne (h : a.path ≠ b.path) : Apart a b :=
  ⟨fun same ↦ h same.2.1, fun _ same ↦ absurd same.symm h, fun _ same ↦ absurd same h⟩

theorem apart_of_code_ne (h : a.code ≠ b.code) (first : a.code ≠ .syntaxError)
    (second : b.code = .syntaxError → a.code ∉ readCodes) : Apart a b :=
  ⟨fun same ↦ h same.1, fun unread ↦ absurd unread first, fun unread _ ↦ second unread⟩

theorem apart_of_variableName_ne (h : a.variableName ≠ b.variableName)
    (first : a.code ≠ .syntaxError) (second : b.code ≠ .syntaxError) : Apart a b :=
  ⟨fun same ↦ h same.2.2, fun unread ↦ absurd unread first, fun unread ↦ absurd unread second⟩

theorem StandsIn.path_ne {path other : IssuePath} (h : a.StandsIn path) (h' : b.StandsIn other)
    (level : path.length = other.length) (differ : path ≠ other) : a.path ≠ b.path := by
  intro same
  rw [StandsIn, same] at h
  exact differ ((List.prefix_of_prefix_length_le h h' level.le).eq_of_length level)

/-- The issues of a list of items are apart if those of each item are and stand elsewhere than those
of the others. -/
theorem pairwise_apart_flatMap {α : Type} {items : List α} {found : α → List Issue}
    (each : ∀ item ∈ items, (found item).Pairwise Apart)
    (elsewhere : items.Pairwise fun x y ↦ ∀ a ∈ found x, ∀ b ∈ found y, a.path ≠ b.path) :
    (items.flatMap found).Pairwise Apart := by
  rw [List.pairwise_flatMap]
  refine ⟨each, elsewhere.imp ?_⟩
  intro x y apart a here b there
  exact apart_of_path_ne (apart a here b there)

/-! ## Expressions -/

theorem pairwise_apart_ofVariables (e : Expr) :
    (ofVariables env path text e).Pairwise Apart := by
  rw [ofVariables, List.pairwise_map]
  apply (e.nodup_variableNames.filter _).imp
  intro name other differ
  apply apart_of_variableName_ne
  · simpa [ofFinding, Finding.variableName?] using differ
  · simp [ofFinding, Finding.code]
  · simp [ofFinding, Finding.code]

theorem pairwise_apart_ofExpression {ofType : Inference → List Issue}
    (type : ∀ found, (ofType found).Pairwise Apart)
    (codes : ∀ found, ∀ issue ∈ ofType found,
      issue.code = .typeMismatch ∨ issue.code = .booleanContext) :
    (ofExpression env path text ofType).Pairwise Apart := by
  unfold ofExpression
  cases Expr.parse text with
  | error fault => exact List.pairwise_singleton _ _
  | ok e =>
    refine List.pairwise_append.mpr ⟨pairwise_apart_ofVariables e, type _, ?_⟩
    intro a unknown b mistyped
    obtain ⟨name, -, rfl⟩ := List.mem_map.mp unknown
    rcases codes _ b mistyped with code | code <;>
      apply apart_of_code_ne <;> simp [ofFinding, Finding.code, code]

theorem pairwise_apart_ofCondition (condition : Option Condition) :
    (ofCondition env path condition).Pairwise Apart := by
  match condition with
  | none | some (.literal _) => exact .nil
  | some (.expression text) =>
    apply pairwise_apart_ofExpression
    · intro found
      unfold ofBoolean
      split <;> simp
    · intro found issue mistyped
      obtain ⟨-, mistyped⟩ := List.mem_ite_nil_right.mp mistyped
      cases List.mem_singleton.mp mistyped
      exact .inr rfl

theorem exists_path_of_mem_ofConditions {required visible : Option Condition}
    (h : issue ∈ ofConditions env path required visible) :
    ∃ name, issue.path = path ++ [.key name] := by
  rcases List.mem_append.mp h with h | h
  · exact ⟨_, (of_mem_ofCondition h).1⟩
  · exact ⟨_, (of_mem_ofCondition h).1⟩

theorem pairwise_apart_ofConditions (required visible : Option Condition) :
    (ofConditions env path required visible).Pairwise Apart := by
  refine List.pairwise_append.mpr
    ⟨pairwise_apart_ofCondition required, pairwise_apart_ofCondition visible, ?_⟩
  intro a here b there
  apply apart_of_path_ne
  rw [(of_mem_ofCondition here).1, (of_mem_ofCondition there).1]
  simp

/-! ## Rules -/

variable {order : Order String} {entry : LogicEntry} {cyclic : Bool} {property : Option String}

theorem of_mem_ofProperty {type : FieldType} (h : issue ∈ ofProperty type path text property) :
    issue.path = path ∧ issue.code = .unknownProperty := by
  cases property with
  | none => cases h
  | some name =>
    obtain ⟨-, h⟩ := List.mem_ite_nil_left.mp h
    cases List.mem_singleton.mp h
    exact ⟨rfl, rfl⟩

theorem of_mem_ofLeafType {found : Inference} {declared : ValueType}
    (h : issue ∈ if cyclic then [] else ofDeclared declared path text found) :
    issue.path = path ∧ issue.code = .typeMismatch := by
  obtain ⟨-, h⟩ := List.mem_ite_nil_left.mp h
  obtain ⟨-, h⟩ := List.mem_ite_nil_right.mp h
  cases List.mem_singleton.mp h
  exact ⟨rfl, rfl⟩

theorem path_of_mem_ofLeaf (h : issue ∈ ofLeaf env entry cyclic path property text) :
    issue.path = path ++ property.toList.map .key := by
  rcases List.mem_append.mp h with h | h
  · exact (of_mem_ofProperty h).1
  · apply forall_mem_ofExpression
      (P := fun issue ↦ issue.path = path ++ property.toList.map PathSegment.key)
      (fun _ ↦ rfl) (fun _ ↦ rfl) _ issue h
    exact fun found issue mistyped ↦ (of_mem_ofLeafType mistyped).1

theorem pairwise_apart_ofProperty {type : FieldType} :
    (ofProperty type path text property).Pairwise Apart := by
  unfold ofProperty
  cases property with
  | none => exact .nil
  | some name =>
    dsimp only
    split <;> simp

theorem pairwise_apart_ofDeclared {found : Inference} {declared : ValueType} :
    (ofDeclared declared path text found).Pairwise Apart := by
  unfold ofDeclared
  split <;> simp

theorem pairwise_apart_ofLeaf : (ofLeaf env entry cyclic path property text).Pairwise Apart := by
  refine List.pairwise_append.mpr ⟨pairwise_apart_ofProperty, ?_, ?_⟩
  · apply pairwise_apart_ofExpression
    · intro found
      split
      · exact .nil
      · exact pairwise_apart_ofDeclared
    · exact fun found issue mistyped ↦ .inl (of_mem_ofLeafType mistyped).2
  · intro a misnamed b found
    have code := (of_mem_ofProperty misnamed).2
    have other : b.code ≠ .unknownProperty := by
      apply forall_mem_ofExpression (P := fun issue ↦ issue.code ≠ .unknownProperty) _ _ _ b found
      · simp [ofFinding, Finding.code]
      · simp [ofFinding, Finding.code]
      · intro found issue mistyped
        simp [(of_mem_ofLeafType mistyped).2]
    apply apart_of_code_ne
    · rw [code]
      exact other.symm
    · simp [code]
    · simp [code, readCodes]

theorem pairwise_apart_ofEntry : (ofEntry env entry cyclic path).Pairwise Apart := by
  have leaves : (entry.value.expressions.flatMap fun leaf ↦
      ofLeaf env entry cyclic path leaf.1 leaf.2).Pairwise Apart := by
    apply pairwise_apart_flatMap
    · exact fun leaf _ ↦ pairwise_apart_ofLeaf
    · apply (List.pairwise_map.mp entry.value.nodup_expressions).imp
      rintro ⟨property, _⟩ ⟨property', _⟩ differ a here b there
      rw [path_of_mem_ofLeaf here, path_of_mem_ofLeaf there]
      cases property <;> cases property' <;> simp_all
  unfold ofEntry
  split
  · dsimp only
    split <;> simp
  · exact leaves

theorem pairwise_apart_ofCycles (distinct : order.cyclic.Nodup) :
    (ofCycles order base).Pairwise Apart := by
  rw [ofCycles, List.pairwise_map]
  apply distinct.imp
  intro key key' differ
  apply apart_of_path_ne
  simpa [ofFinding, Report.rulePath] using differ

theorem pairwise_apart_ofLogic (distinct : order.cyclic.Nodup) (logic : LogicSection) :
    (ofLogic env order logic base).Pairwise Apart := by
  refine List.pairwise_append.mpr ⟨pairwise_apart_ofCycles distinct, ?_, ?_⟩
  · apply pairwise_apart_flatMap
    · exact fun rule _ ↦ pairwise_apart_ofEntry
    · apply (List.pairwise_map.mp logic.nodup_keys).imp
      intro rule rule' differ a here b there
      apply (standsIn_of_mem_ofRule here).path_ne (standsIn_of_mem_ofRule there)
      · simp [Report.rulePath]
      · simpa [Report.rulePath] using differ
  · intro a cycle b found
    obtain ⟨key, -, rfl⟩ := List.mem_map.mp cycle
    obtain ⟨rule, -, found⟩ := List.mem_flatMap.mp found
    apply apart_of_path_ne
    intro same
    have within := (standsIn_of_mem_ofRule found).length_le
    rw [← same] at within
    simp [ofFinding, Report.rulePath] at within

/-! ## Forms -/

theorem pairwise_path_ne_visitsAll {entries : List (String × Field)}
    (distinct : Field.DistinctEntries entries) :
    (Field.visitsAll maxDepth path entries).Pairwise fun visit visit' ↦
      visit.path ≠ visit'.path := by
  rw [Field.visitsAll_eq_map_entered, List.pairwise_map]
  apply (Field.pairwise_chain_ne distinct maxDepth).imp
  intro o o' differ same
  obtain ⟨outer, id⟩ := Field.place_injective same
  exact differ (by rw [Occurrence.chain, Occurrence.chain, outer, id])

theorem pairwise_place_ne {α : Type} (items : List α) :
    items.zipIdx.Pairwise fun item item' ↦ item.2 ≠ item'.2 := by
  have distinct : (items.zipIdx.map Prod.snd).Nodup := by
    rw [List.zipIdx_map_snd]
    exact List.nodup_range'
  exact List.pairwise_map.mp distinct

/-- What is found at the visits of a walk stands below its beginning. -/
theorem standsIn_of_mem_visits {entries : List (String × Field)} {found : Visit → List Issue}
    (below : ∀ visit, ∀ issue ∈ found visit, issue.StandsIn visit.path)
    (h : issue ∈ (Field.visitsAll maxDepth path entries).flatMap found) : issue.StandsIn path := by
  obtain ⟨visit, visited, h⟩ := List.mem_flatMap.mp h
  obtain ⟨outer, id, -, -, place⟩ := Field.exists_reached_of_mem_visitsAll visited
  have stands := below visit issue h
  rw [place, Field.place_eq_append] at stands
  exact stands.shorten

theorem standsIn_of_mem_ofConditions {required visible : Option Condition}
    (h : issue ∈ ofConditions env path required visible) : issue.StandsIn path := by
  obtain ⟨name, same⟩ := exists_path_of_mem_ofConditions h
  rw [StandsIn, same]
  exact List.prefix_append _ _

theorem pairwise_apart_depths {entries : List (String × Field)}
    (distinct : Field.DistinctEntries entries) :
    ((Field.visitsAll maxDepth path entries).flatMap (ofDepth maxDepth)).Pairwise Apart := by
  apply pairwise_apart_flatMap
  · intro visit _
    unfold ofDepth
    split <;> simp
  · apply (pairwise_path_ne_visitsAll distinct).imp
    intro visit visit' differ a here b there
    rwa [(of_mem_ofDepth here).1, (of_mem_ofDepth there).1]

theorem pairwise_apart_fields {entries : List (String × Field)}
    (distinct : Field.DistinctEntries entries) :
    ((Field.visitsAll maxDepth path entries).flatMap (ofField env)).Pairwise Apart := by
  apply pairwise_apart_flatMap
  · exact fun visit _ ↦ pairwise_apart_ofConditions _ _
  · apply (pairwise_path_ne_visitsAll distinct).imp
    intro visit visit' differ a here b there
    obtain ⟨name, path⟩ := exists_path_of_mem_ofConditions here
    obtain ⟨name', path'⟩ := exists_path_of_mem_ofConditions there
    rw [path, path']
    exact fun same ↦ differ (List.append_inj_left' same rfl)

theorem pairwise_apart_annexes (annexes : List Annex) :
    (annexes.zipIdx.flatMap (ofAnnex env base)).Pairwise Apart := by
  apply pairwise_apart_flatMap
  · exact fun annex _ ↦ pairwise_apart_ofConditions _ _
  · apply (pairwise_place_ne annexes).imp
    intro annex annex' differ a here b there
    apply (standsIn_of_mem_ofConditions here).path_ne (standsIn_of_mem_ofConditions there)
    · simp
    · simpa using differ

theorem standsIn_of_mem_depths {entries : List (String × Field)}
    (h : issue ∈ (Field.visitsAll maxDepth path entries).flatMap (ofDepth maxDepth)) :
    issue.StandsIn path := by
  apply standsIn_of_mem_visits _ h
  intro visit issue h
  simp only [StandsIn, (of_mem_ofDepth h).1, List.prefix_rfl]

theorem standsIn_of_mem_fields {entries : List (String × Field)}
    (h : issue ∈ (Field.visitsAll maxDepth path entries).flatMap (ofField env)) :
    issue.StandsIn path :=
  standsIn_of_mem_visits (fun _ _ ↦ standsIn_of_mem_ofConditions) h

theorem standsIn_of_mem_annexes {annexes : List Annex}
    (h : issue ∈ annexes.zipIdx.flatMap (ofAnnex env base)) :
    issue.StandsIn (base ++ [.key "annexes"]) := by
  obtain ⟨annex, -, h⟩ := List.mem_flatMap.mp h
  have stands := standsIn_of_mem_ofConditions h
  rw [List.append_cons] at stands
  exact stands.shorten

/-- What is found in different parts of a value is apart. -/
theorem StandsIn.apart_of_key {name name' : String} (h : a.StandsIn (base ++ [.key name]))
    (h' : b.StandsIn (base ++ [.key name'])) (differ : name ≠ name') : Apart a b := by
  apply apart_of_path_ne
  apply h.path_ne h'
  · simp
  · simpa using differ

theorem pairwise_apart_ofForm (form : Form) : (ofForm maxDepth base form).Pairwise Apart := by
  have distinct := form.fields.distinct
  simp only [ofForm, List.pairwise_append, List.mem_append]
  refine ⟨⟨⟨pairwise_apart_depths distinct,
    pairwise_apart_ofLogic (Graph.nodup_cyclic _) form.logic, ?_⟩,
    pairwise_apart_fields distinct, ?_⟩, pairwise_apart_annexes form.annexes, ?_⟩
  · intro a deep b found
    exact (standsIn_of_mem_depths deep).apart_of_key (standsIn_of_mem_ofLogic found) (by decide)
  · rintro a (deep | found) b condition
    · -- The depth and the conditions are checked in the same fields, but have no code in common.
      obtain ⟨visit, -, deep⟩ := List.mem_flatMap.mp deep
      obtain ⟨visit', -, condition⟩ := List.mem_flatMap.mp condition
      have code := (of_mem_ofDepth deep).2
      apply apart_of_code_ne
      · rw [code]
        exact (code_ne_of_mem_ofConditions condition).symm
      · simp [code]
      · simp [code, readCodes]
    · exact (standsIn_of_mem_ofLogic found).apart_of_key (standsIn_of_mem_fields condition)
        (by decide)
  · rintro a ((deep | found) | condition) b annex
    · exact (standsIn_of_mem_depths deep).apart_of_key (standsIn_of_mem_annexes annex) (by decide)
    · exact (standsIn_of_mem_ofLogic found).apart_of_key (standsIn_of_mem_annexes annex) (by decide)
    · exact (standsIn_of_mem_fields condition).apart_of_key (standsIn_of_mem_annexes annex)
        (by decide)

/-! ## Artifacts -/

mutual

theorem pairwise_apart_ofArtifact : ∀ (artifact : Artifact) (base : IssuePath),
    (ofArtifact maxDepth base artifact).Pairwise Apart
  | .form form, base => by
    rw [ofArtifact]
    exact pairwise_apart_ofForm form
  | .bundle _ _ logic contents, base => by
    rw [ofArtifact, ofItems_eq_flatMap]
    refine List.pairwise_append.mpr ⟨pairwise_apart_ofLogic (Graph.nodup_cyclic _) logic, ?_, ?_⟩
    · apply pairwise_apart_flatMap
      · intro item listed
        exact pairwise_apart_ofItems contents item.1 (List.fst_mem_of_mem_zipIdx listed) _ _
      · apply (pairwise_place_ne contents).imp
        intro item item' differ a here b there
        apply (standsIn_of_mem_ofItem here).path_ne (standsIn_of_mem_ofItem there)
        · simp
        · simpa using differ
    · intro a found b inner
      obtain ⟨item, -, inner⟩ := List.mem_flatMap.mp inner
      have stands := standsIn_of_mem_ofItem inner
      rw [List.append_cons] at stands
      exact (standsIn_of_mem_ofLogic found).apart_of_key stands.shorten (by decide)
  | .document _, base | .checklist _, base => by
    rw [ofArtifact]
    exact .nil

theorem pairwise_apart_ofItem : ∀ (item : Item) (env : Environment) (path : IssuePath),
    (ofItem maxDepth env path item).Pairwise Apart
  | .inline _ condition artifact, env, path => by
    rw [ofItem]
    refine List.pairwise_append.mpr
      ⟨pairwise_apart_ofCondition condition, pairwise_apart_ofArtifact artifact _, ?_⟩
    intro a found b inner
    exact (standsIn_of_mem_ofCondition found).apart_of_key (standsIn_of_mem_ofArtifact inner)
      (by decide)
  | .path _ condition _, env, path | .registry _ condition _, env, path => by
    rw [ofItem]
    exact pairwise_apart_ofCondition condition

theorem pairwise_apart_ofItems : ∀ (items : List Item), ∀ item ∈ items,
    ∀ (env : Environment) (path : IssuePath), (ofItem maxDepth env path item).Pairwise Apart
  | [], _, listed => by cases listed
  | first :: rest, item, listed => by
    rcases List.mem_cons.mp listed with same | listed
    · rw [same]
      exact pairwise_apart_ofItem first
    · exact pairwise_apart_ofItems rest item listed

end

end Issue

/-- No two issues that validation returns agree in their codes, their paths and the variables that
they are about. Where an expression cannot be read, nothing is said that comes from reading it. -/
theorem Artifact.issues_unrepeated (artifact : Artifact) (options : Options) :
    let issues := artifact.validate options
    issues.Pairwise (fun a b ↦
      ¬(a.code = b.code ∧ a.path = b.path ∧ a.variableName = b.variableName)) ∧
    ∀ a ∈ issues, ∀ b ∈ issues, a.code = .syntaxError → b.path = a.path →
      b.code ≠ .unknownVariable ∧ b.code ≠ .typeMismatch ∧ b.code ≠ .booleanContext := by
  intro issues
  have apart : issues.Pairwise Issue.Apart :=
    (Issue.pairwise_apart_ofArtifact artifact []).sublist (artifact.validate_sublist options)
  refine ⟨apart.imp Issue.Apart.differ, ?_⟩
  intro a here b there unread same
  by_cases one : a = b
  · simp [← one, unread]
  · have unsaid := (apart.forall here there one).unread unread same
    simpa [Issue.readCodes] using unsaid

/-- A rule with an unknown property of which no value can be read, and with two unknown names in an
expression that is of the wrong type, and fieldsets and fields with the same names at each level. -/
theorem Artifact.issues_unrepeated_of_crowded_places :
    let leaf : Field := ⟨.number, none, none, none, some (.expression "1 + 1"), []⟩
    let group : Field := ⟨.fieldset, none, none, some (.expression "1 + 1"), none,
      [("fields", leaf), ("required", leaf)]⟩
    let price : LogicValue := .object (.ofList
      [("colour", "1 +"), ("currency", "length(left) + length(right)")])
    let artifact : Artifact := .form ⟨none, none,
      .ofEntries [("fields", group), ("required", leaf)], [],
      .ofList [("price", ⟨.money, none, none, price⟩)]⟩
    let issues := artifact.validate {}
    issues.map (fun issue ↦ (issue.code, issue.variableName)) =
      [(.unknownProperty, none), (.syntaxError, none), (.unknownVariable, some "left"),
        (.unknownVariable, some "right"), (.typeMismatch, none), (.booleanContext, none),
        (.booleanContext, none), (.booleanContext, none), (.booleanContext, none)] ∧
    issues.Pairwise (fun a b ↦
      ¬(a.code = b.code ∧ a.path = b.path ∧ a.variableName = b.variableName)) ∧
    ∀ a ∈ issues, ∀ b ∈ issues, a.code = .syntaxError → b.path = a.path →
      b.code ≠ .unknownVariable ∧ b.code ≠ .typeMismatch ∧ b.code ≠ .booleanContext := by
  intro leaf group price artifact issues
  exact ⟨by decide +kernel, artifact.issues_unrepeated {}⟩

end FormRules
