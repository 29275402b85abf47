import FormRules.Proofs.Scope.Contents

/-!
# Reading what a rule adds

A rule that reads a name that another one adds depends on it, if the name leads to the other rule.
The key of a rule always does. A property of a rule does so only if the key is what stands before
the first dot, is not the root of field paths, and the property is not spelt like a key itself.
-/

namespace FormRules

variable {name key : String} {keys : List String}

theorem Expr.mem_textVariables_iff {text : String} :
    name ∈ textVariables text ↔ ∃ e, parse text = .ok e ∧ name ∈ e.variableNames := by
  unfold textVariables
  cases parse text with
  | error fault => simp
  | ok e => simp

theorem nameRoot_eq_self_iff : nameRoot name = name ↔ '.' ∉ name.toList := by
  constructor
  · intro same dotted
    have plain : '.' ∉ (nameRoot name).toList := by
      intro member
      rw [nameRoot, String.toList_ofList] at member
      have kept := List.mem_takeWhile_imp member
      simp at kept
    rw [same] at plain
    exact plain dotted
  · exact nameRoot_of_notMem

theorem within_ne_self (path tail : String) : Field.within path tail ≠ path := by
  intro same
  have lengths := congrArg (fun text ↦ text.toList.length) same
  simp [toList_within] at lengths

/-- When a name that a rule adds leads to that rule. -/
def LeadsTo (keys : List String) (key name : String) : Prop :=
  name = key ∨ name ∉ keys ∧ '.' ∉ key.toList ∧ key ≠ fieldRoot

instance (keys : List String) (key name : String) : Decidable (LeadsTo keys key name) :=
  inferInstanceAs (Decidable (_ ∨ _))

theorem referencedKey?_within_of_notMem {tail : String} (h : Field.within key tail ∉ keys) :
    referencedKey? (Field.within key tail) keys =
      if nameRoot key ≠ fieldRoot ∧ nameRoot key ∈ keys then some (nameRoot key) else none := by
  have dotted : '.' ∈ (Field.within key tail).toList := by simp [toList_within]
  have root := nameRoot_within key tail
  rw [nameRoot] at root
  rw [referencedKey?, if_neg h]
  simp only [dotted, root, true_and]

/-- Of the names that a rule adds, exactly those that lead to it are taken for references to it. -/
theorem referencedKey?_eq_some_iff {entry : LogicEntry} (declared : key ∈ keys)
    (added : name ∈ entry.names key) :
    referencedKey? name keys = some key ↔ LeadsTo keys key name := by
  rcases List.mem_cons.1 added with rfl | added
  · simp [referencedKey?, LeadsTo, declared]
  · obtain ⟨property, -, rfl⟩ := List.mem_map.1 added
    have other := within_ne_self key property.1
    by_cases spelt : Field.within key property.1 ∈ keys
    · simp [referencedKey?, LeadsTo, spelt, other]
    · rw [referencedKey?_within_of_notMem spelt]
      constructor
      · intro found
        split at found
        · next root =>
          have same : nameRoot key = key := Option.some.inj found
          rw [same] at root
          exact .inr ⟨spelt, nameRoot_eq_self_iff.1 same, root.1⟩
        · cases found
      · intro leads
        obtain ⟨-, plain, inner⟩ := leads.resolve_left other
        rw [nameRoot_of_notMem plain, if_pos ⟨inner, declared⟩]

namespace LogicSection

/-- A well-formed expression of the rule of a key mentions a name. -/
def Reads (logic : LogicSection) (key name : String) : Prop :=
  ∃ entry property text e, logic.get? key = some entry ∧
    (property, text) ∈ entry.value.expressions ∧ Expr.parse text = .ok e ∧ name ∈ e.variableNames

variable {logic : LogicSection} {reader writer : String}

theorem reads_iff : logic.Reads key name ↔
    ∃ entry, logic.get? key = some entry ∧ name ∈ entry.value.variableNames := by
  constructor
  · rintro ⟨entry, property, text, e, found, leaf, parsed, used⟩
    have mentioned := Expr.mem_textVariables_iff.2 ⟨e, parsed, used⟩
    exact ⟨entry, found, List.mem_flatMap.2 ⟨(property, text), leaf, mentioned⟩⟩
  · rintro ⟨entry, found, used⟩
    obtain ⟨leaf, listed, mentioned⟩ := List.mem_flatMap.1 used
    obtain ⟨e, parsed, used⟩ := Expr.mem_textVariables_iff.1 mentioned
    exact ⟨entry, leaf.1, leaf.2, e, found, listed, parsed, used⟩

theorem edge_of_reads (reads : logic.Reads reader name) (adds : logic.Adds writer name)
    (leads : LeadsTo logic.keys writer name) : (dependencies logic).Edge reader writer := by
  have declared := adds.mem_keys
  obtain ⟨added, -, listed⟩ := adds
  obtain ⟨entry, found, used⟩ := reads_iff.1 reads
  have reference := (referencedKey?_eq_some_iff declared listed).2 leads
  exact (edge_dependencies_iff found).2 ⟨name, used, reference⟩

/-- A rule that reads a name that leads to the rule that adds it depends on that rule. If it is the
rule itself it is on a cycle, and otherwise it has its turn later unless one of both is on one. -/
theorem reads_depend (logic : LogicSection) (reader writer name : String)
    (reads : logic.Reads reader name) (adds : logic.Adds writer name)
    (leads : LeadsTo logic.keys writer name) :
    (dependencies logic).hasEdge reader writer = true ∧
      (reader = writer → reader ∈ (order logic).cyclic) ∧
      (reader ∉ (order logic).cyclic → writer ∉ (order logic).cyclic →
        (order logic).sorted.idxOf writer < (order logic).sorted.idxOf reader) := by
  have edge := edge_of_reads reads adds leads
  refine ⟨Graph.hasEdge_eq_true_iff.2 edge, ?_, ?_⟩
  · rintro rfl
    exact Graph.mem_cyclic_iff.2 (.single edge)
  · intro reader_straight writer_straight
    apply Graph.idxOf_sorted_lt edge
    · exact fun cycle ↦ reader_straight (Graph.mem_cyclic_iff.2 cycle)
    · exact fun cycle ↦ writer_straight (Graph.mem_cyclic_iff.2 cycle)

/-- A rule that reads a property of an object that another rule gives. -/
theorem reads_depend_on_property :
    let logic : LogicSection := .ofList
      [("ready", ⟨.boolean, none, none, .expression "total.amount > 1"⟩),
        ("total", ⟨.money, none, none, .object (.ofList [("amount", "1 + 1")])⟩)]
    (logic.Reads "ready" "total.amount" ∧ logic.Adds "total" "total.amount" ∧
      LeadsTo logic.keys "total" "total.amount") ∧
    (dependencies logic).hasEdge "ready" "total" = true ∧
      (order logic).sorted.idxOf "total" < (order logic).sorted.idxOf "ready" := by
  intro logic
  have reads : logic.Reads "ready" "total.amount" := reads_iff.2 ⟨_, rfl, by decide +kernel⟩
  have adds : logic.Adds "total" "total.amount" := ⟨_, rfl, by decide +kernel⟩
  have leads : LeadsTo logic.keys "total" "total.amount" := by decide +kernel
  have law := reads_depend logic "ready" "total" "total.amount" reads adds leads
  exact ⟨⟨reads, adds, leads⟩, law.1, law.2.2 (by decide +kernel) (by decide +kernel)⟩

/-- Properties of a rule whose key is the root of field paths or has a dot, and a property that is
spelt like a key, are read without any dependency and before their turn. A rule with such a key may
even read itself without being on a cycle. -/
theorem reads_without_dependency :
    let logic : LogicSection := .ofList
      [("sum", ⟨.number, none, none,
          .expression "fields.amount + net.total.amount + gross.amount"⟩),
        ("fields", ⟨.money, none, none, .object (.ofList [("amount", "1")])⟩),
        ("net.total", ⟨.money, none, none, .object (.ofList [("amount", "net.total.amount")])⟩),
        ("gross", ⟨.money, none, none, .object (.ofList [("amount", "2")])⟩),
        ("gross.amount", ⟨.number, none, none, .expression "3"⟩)]
    (∀ writer ∈ ["fields", "net.total", "gross"],
      logic.Reads "sum" (Field.within writer "amount") ∧
        logic.Adds writer (Field.within writer "amount") ∧
        (dependencies logic).hasEdge "sum" writer = false ∧
        (order logic).sorted.idxOf "sum" < (order logic).sorted.idxOf writer) ∧
      logic.Reads "net.total" (Field.within "net.total" "amount") ∧
      (order logic).cyclic = [] := by
  intro logic
  have reads : ∀ writer ∈ ["fields", "net.total", "gross"],
      logic.Reads "sum" (Field.within writer "amount") := by
    intro writer listed
    apply reads_iff.2
    exact ⟨_, rfl, by revert writer; decide +kernel⟩
  have adds : ∀ writer ∈ ["fields", "net.total", "gross"],
      logic.Adds writer (Field.within writer "amount") := by
    intro writer listed
    simp only [List.mem_cons, List.not_mem_nil, or_false] at listed
    rcases listed with rfl | rfl | rfl
    · exact ⟨_, rfl, by decide +kernel⟩
    · exact ⟨_, rfl, by decide +kernel⟩
    · exact ⟨_, rfl, by decide +kernel⟩
  have apart : ∀ writer ∈ ["fields", "net.total", "gross"],
      (dependencies logic).hasEdge "sum" writer = false ∧
        (order logic).sorted.idxOf "sum" < (order logic).sorted.idxOf writer := by decide +kernel
  have own : logic.Reads "net.total" (Field.within "net.total" "amount") :=
    reads_iff.2 ⟨_, rfl, by decide +kernel⟩
  refine ⟨?_, own, by decide +kernel⟩
  intro writer listed
  exact ⟨reads writer listed, adds writer listed, apart writer listed⟩

end LogicSection

end FormRules
