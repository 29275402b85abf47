import FormRules.Proofs.Validation.Relocated

/-!
# Validation of bundles

The issues of a bundle are those of its own rules and conditions and, between them, those that each
artifact within it has on its own. The path of an issue tells these apart, so nothing else in the
bundle has an effect on what is found in an artifact within it, nor the other way round.
-/

namespace FormRules

namespace Issue

/-- An issue stands at a path or below it. -/
def StandsIn (path : IssuePath) (issue : Issue) : Prop := path <+: issue.path

instance (path : IssuePath) : DecidablePred (StandsIn path) := fun issue ↦
  inferInstanceAs (Decidable (path <+: issue.path))

/-- The path of the artifact in the item at a place of a bundle. -/
def artifactPath (place : Nat) : IssuePath := [.key "contents", .index place, .key "artifact"]

variable {env : Environment} {base path other : IssuePath} {issue : Issue} {issues : List Issue}
  {maxDepth : Nat}

/-! ## Where issues stand -/

theorem standsIn_of_mem_map (h : issue ∈ issues.map (under base)) : issue.StandsIn base := by
  obtain ⟨inner, -, rfl⟩ := List.mem_map.1 h
  exact List.prefix_append base inner.path

theorem StandsIn.shorten (h : issue.StandsIn (base ++ path)) : issue.StandsIn base :=
  (List.prefix_append base path).trans h

/-- Paths that differ before the end of the shorter one have no issue in common. -/
theorem StandsIn.apart (h : issue.StandsIn other) (shorter : other.length ≤ path.length)
    (differ : ¬other <+: path) : ¬issue.StandsIn path :=
  fun stands ↦ differ (List.prefix_of_prefix_length_le h stands shorter)

theorem standsIn_of_mem_ofCondition {condition : Option Condition}
    (h : issue ∈ ofCondition env path condition) : issue.StandsIn path := by
  rw [← List.append_nil path, ofCondition_append path] at h
  exact standsIn_of_mem_map h

theorem standsIn_of_mem_ofItem {item : Item} (h : issue ∈ ofItem maxDepth env path item) :
    issue.StandsIn path := by
  rw [← List.append_nil path, ofItem_append path] at h
  exact standsIn_of_mem_map h

theorem standsIn_of_mem_ofArtifact {artifact : Artifact}
    (h : issue ∈ ofArtifact maxDepth base artifact) : issue.StandsIn base := by
  rw [← List.append_nil base, ofArtifact_append base] at h
  exact standsIn_of_mem_map h

theorem standsIn_of_mem_ofRule {order : Order String} {rule : String × LogicEntry}
    (h : issue ∈ ofRule env order base rule) :
    issue.StandsIn (Report.rulePath base rule.1 ++ [.key "value"]) := by
  rw [ofRule, ← List.append_nil (_ ++ _), ofEntry_append] at h
  exact standsIn_of_mem_map h

theorem standsIn_of_mem_ofLogic {order : Order String} {logic : LogicSection}
    (h : issue ∈ ofLogic env order logic base) : issue.StandsIn (base ++ [.key "logic"]) := by
  have rule_path : ∀ key,
      Report.rulePath base key = base ++ [.key "logic"] ++ [.key key] := by
    intro key
    rw [Report.rulePath, List.append_assoc]
    rfl
  rcases List.mem_append.1 h with h | h
  · obtain ⟨key, -, rfl⟩ := List.mem_map.1 h
    exact ⟨[.key key], (rule_path key).symm⟩
  · obtain ⟨rule, -, found⟩ := List.mem_flatMap.1 h
    have stands := standsIn_of_mem_ofRule found
    rw [rule_path] at stands
    exact stands.shorten.shorten

theorem ofItems_eq_flatMap (place : Nat) (items : List Item) :
    ofItems maxDepth env base place items = (items.zipIdx place).flatMap fun item ↦
      ofItem maxDepth env (base ++ [.key "contents", .index item.2]) item.1 := by
  induction items generalizing place with
  | nil => rw [ofItems, List.zipIdx_nil, List.flatMap_nil]
  | cons item rest ih => rw [ofItems, ih, List.zipIdx_cons, List.flatMap_cons]

/-- Items at other places have no issues in the artifact at a place. -/
theorem not_standsIn_of_mem_ofItems {first place : Nat} {items : List Item}
    (h : issue ∈ ofItems maxDepth env [] first items)
    (elsewhere : place < first ∨ first + items.length ≤ place) :
    ¬issue.StandsIn (artifactPath place) := by
  rw [ofItems_eq_flatMap] at h
  obtain ⟨⟨item, at_place⟩, member, found⟩ := List.mem_flatMap.1 h
  obtain ⟨lower, upper, -⟩ := List.mem_zipIdx member
  have differs : at_place ≠ place := by omega
  apply (standsIn_of_mem_ofItem found).apart
  · simp [artifactPath]
  · simp [artifactPath, differs]

end Issue

namespace Artifact

open Issue (artifactPath StandsIn under)

variable {name title : Option String} {logic : LogicSection} {contents : List Item}
  {maxDepth place : Nat} {key : String} {condition : Option Condition}

/-- Whatever artifact an item has, the bundle has the same issues before and after those of the
artifact, and none of them stands within it. -/
theorem exists_validate_bundle_eq (declared : place < contents.length) :
    ∃ before after : List Issue,
      (∀ issue ∈ before ++ after, ¬issue.StandsIn (artifactPath place)) ∧
      ∀ artifact : Artifact,
        (bundle name title logic (contents.set place (.inline key condition artifact))).validate
            ⟨true, maxDepth⟩ =
          before ++ (artifact.validate ⟨true, maxDepth⟩).map (under (artifactPath place)) ++
            after := by
  let env := Environment.build .empty logic maxDepth
  let own := Issue.ofLogic env (LogicSection.order logic) logic []
  let earlier := Issue.ofItems maxDepth env [] 0 (contents.take place)
  let condition_issues :=
    Issue.ofCondition env [.key "contents", .index place, .key "include"] condition
  let later := Issue.ofItems maxDepth env [] (place + 1) (contents.drop (place + 1))
  have taken : (contents.take place).length = place :=
    List.length_take_of_le (Nat.le_of_lt declared)
  refine ⟨own ++ earlier ++ condition_issues, later, ?_, ?_⟩
  · intro issue found
    simp only [List.mem_append] at found
    rcases found with ((found | found) | found) | found
    · apply (Issue.standsIn_of_mem_ofLogic found).apart <;> simp [artifactPath]
    · apply Issue.not_standsIn_of_mem_ofItems found
      omega
    · apply (Issue.standsIn_of_mem_ofCondition found).apart <;> simp [artifactPath]
    · apply Issue.not_standsIn_of_mem_ofItems found
      omega
  · intro artifact
    have inner : Issue.ofArtifact maxDepth (artifactPath place) artifact =
        (artifact.validate ⟨true, maxDepth⟩).map (under (artifactPath place)) := by
      rw [validate_eq_ofArtifact, ← Issue.ofArtifact_append, List.append_nil]
    have items : Issue.ofItems maxDepth env [] 0
        (contents.set place (.inline key condition artifact)) = earlier ++ (condition_issues ++
          Issue.ofArtifact maxDepth (artifactPath place) artifact ++ later) := by
      rw [List.set_eq_take_append_cons_drop, if_pos declared, Issue.ofItems_eq_flatMap,
        List.zipIdx_append, List.zipIdx_cons, List.flatMap_append, List.flatMap_cons, taken,
        Nat.zero_add, ← Issue.ofItems_eq_flatMap, ← Issue.ofItems_eq_flatMap, Issue.ofItem]
      rfl
    rw [validate_eq_ofArtifact, Issue.ofArtifact, items, inner]
    simp only [List.append_assoc]
    rfl

theorem set_eq_self {artifact : Artifact}
    (stands : contents[place]? = some (.inline key condition artifact)) :
    contents.set place (.inline key condition artifact) = contents := by
  obtain ⟨declared, item⟩ := List.getElem?_eq_some_iff.1 stands
  rw [← item, List.set_getElem_self]

/-- The issues of a bundle in an artifact within it are those of the artifact on its own. -/
theorem filter_standsIn_bundle {artifact : Artifact}
    (stands : contents[place]? = some (.inline key condition artifact)) :
    ((bundle name title logic contents).validate ⟨true, maxDepth⟩).filter
        (StandsIn (artifactPath place)) =
      (artifact.validate ⟨true, maxDepth⟩).map (under (artifactPath place)) := by
  obtain ⟨before, after, outside, split⟩ :=
    exists_validate_bundle_eq (List.getElem?_eq_some_iff.1 stands).1
  have none_before : before.filter (StandsIn (artifactPath place)) = [] :=
    List.filter_eq_nil_iff.2 fun issue found ↦ by
      simpa using outside issue (List.mem_append_left after found)
  have none_after : after.filter (StandsIn (artifactPath place)) = [] :=
    List.filter_eq_nil_iff.2 fun issue found ↦ by
      simpa using outside issue (List.mem_append_right before found)
  have all_within : ∀ issues : List Issue,
      (issues.map (under (artifactPath place))).filter (StandsIn (artifactPath place)) =
        issues.map (under (artifactPath place)) := by
    intro issues
    apply List.filter_eq_self.2
    intro issue found
    exact decide_eq_true (Issue.standsIn_of_mem_map found)
  rw [← set_eq_self stands, split artifact, List.filter_append, List.filter_append, none_before,
    none_after, all_within, List.append_nil, List.nil_append]

/-- The issues of a bundle outside an artifact within it are the same for any other artifact. -/
theorem filter_not_standsIn_bundle (artifact other : Artifact)
    (declared : place < contents.length) :
    ((bundle name title logic (contents.set place (.inline key condition artifact))).validate
        ⟨true, maxDepth⟩).filter (fun issue ↦ ¬issue.StandsIn (artifactPath place)) =
      ((bundle name title logic (contents.set place (.inline key condition other))).validate
        ⟨true, maxDepth⟩).filter (fun issue ↦ ¬issue.StandsIn (artifactPath place)) := by
  obtain ⟨before, after, -, split⟩ := exists_validate_bundle_eq declared
  have none_within : ∀ issues : List Issue,
      (issues.map (under (artifactPath place))).filter
        (fun issue ↦ ¬issue.StandsIn (artifactPath place)) = [] := by
    intro issues
    apply List.filter_eq_nil_iff.2
    intro issue found
    simpa using Issue.standsIn_of_mem_map found
  rw [split artifact, split other]
  simp only [List.filter_append, none_within]

/-- Validation of a bundle is put together from that of its parts. What is found in an artifact
within it is what is found in that artifact on its own, whatever else is in the bundle, and what is
found elsewhere does not depend on that artifact. -/
theorem bundle_compositional (name title : Option String) (logic : LogicSection)
    (contents : List Item) (maxDepth place : Nat) (key : String) (condition : Option Condition)
    (artifact : Artifact) (stands : contents[place]? = some (.inline key condition artifact)) :
    let issues := (bundle name title logic contents).validate ⟨true, maxDepth⟩
    issues.filter (StandsIn (artifactPath place)) =
      (artifact.validate ⟨true, maxDepth⟩).map (under (artifactPath place)) ∧
    (∀ other : Artifact,
      ((bundle name title logic (contents.set place (.inline key condition other))).validate
          ⟨true, maxDepth⟩).filter (fun issue ↦ ¬issue.StandsIn (artifactPath place)) =
        issues.filter fun issue ↦ ¬issue.StandsIn (artifactPath place)) ∧
    ∀ (name' title' : Option String) (logic' : LogicSection) (contents' : List Item)
      (key' : String) (condition' : Option Condition),
      contents'[place]? = some (.inline key' condition' artifact) →
        ((bundle name' title' logic' contents').validate ⟨true, maxDepth⟩).filter
            (StandsIn (artifactPath place)) = issues.filter (StandsIn (artifactPath place)) := by
  intro issues
  have within : issues.filter (StandsIn (artifactPath place)) =
      (artifact.validate ⟨true, maxDepth⟩).map (under (artifactPath place)) :=
    filter_standsIn_bundle stands
  refine ⟨within, ?_, ?_⟩
  · intro other
    have declared := (List.getElem?_eq_some_iff.1 stands).1
    rw [filter_not_standsIn_bundle other artifact declared, set_eq_self stands]
  · intro name' title' logic' contents' key' condition' stands'
    rw [within]
    exact filter_standsIn_bundle stands'

/-- A bundle with a rule on a cycle, a condition that uses an unknown name, and a bundle within it
that has an issue of its own and one in a form within that. The bundle within keeps its issues in
another bundle, which has no rules and other items. -/
theorem bundle_compositional_of_nested :
    let form : Form := ⟨none, none, .ofEntries [("note", ⟨.text, none, none, none,
      some (.expression "flag and fields.note.value"), []⟩)], [], .empty⟩
    let inner : Artifact := .bundle none none (.ofList
      [("loop", ⟨.boolean, none, none, .expression "loop"⟩)]) [.inline "form" none (.form form)]
    let logic : LogicSection := .ofList [("flag", ⟨.number, none, none, .expression "not flag"⟩)]
    let contents : List Item :=
      [.path "first" (some (.expression "missing")) "first.json",
        .inline "second" (some (.expression "flag")) inner, .registry "third" none "third"]
    let contents' : List Item := [.inline "form" none (.form form), .inline "moved" none inner]
    let issues := (bundle none none logic contents).validate {}
    issues.length = 4 ∧ (issues.filter (StandsIn (artifactPath 1))).length = 2 ∧
    contents[1]? = some (.inline "second" (some (.expression "flag")) inner) ∧
    contents'[1]? = some (.inline "moved" none inner) ∧
    issues.filter (StandsIn (artifactPath 1)) =
      (inner.validate {}).map (under (artifactPath 1)) ∧
    ((bundle none none logic (contents.set 1 (.inline "second" (some (.expression "flag"))
        (.form .empty)))).validate {}).filter (fun issue ↦ ¬issue.StandsIn (artifactPath 1)) =
      issues.filter (fun issue ↦ ¬issue.StandsIn (artifactPath 1)) ∧
    ((bundle none none .empty contents').validate {}).filter (StandsIn (artifactPath 1)) =
      issues.filter (StandsIn (artifactPath 1)) := by
  intro form inner logic contents contents' issues
  have law := bundle_compositional none none logic contents defaultMaxDepth 1 "second"
    (some (.expression "flag")) inner rfl
  have counts : issues.length = 4 ∧
      (issues.filter (StandsIn (artifactPath 1))).length = 2 := by decide +kernel
  exact ⟨counts.1, counts.2, rfl, rfl, law.1, law.2.1 (.form .empty),
    law.2.2 none none .empty contents' "moved" none rfl⟩

end Artifact

end FormRules
