import FormRules.Proofs.Scope.Reference

/-!
# What inference consults

An expression is inferred from the variables outside comparisons and calls. They are among its
variables, and the dependencies of a rule come from the variables of its expressions, so whatever
inference consults about other rules is a dependency.
-/

namespace FormRules

namespace LogicSection

variable {logic : LogicSection} {key other : String}

/-- The dependencies of a rule are the keys that the variables of its expressions lead to. -/
theorem hasEdge_dependencies_iff : (dependencies logic).hasEdge key other = true ↔
    ∃ name, logic.Reads key name ∧ referencedKey? name logic.keys = some other := by
  rw [Graph.hasEdge_eq_true_iff]
  constructor
  · intro edge
    have declared : key ∈ logic.keys := nodes_dependencies logic ▸ edge.mem_nodes
    obtain ⟨entry, found⟩ := OrderedMap.mem_keys_iff.mp declared
    obtain ⟨name, used, reference⟩ := (edge_dependencies_iff found).mp edge
    exact ⟨name, reads_iff.mpr ⟨entry, found, used⟩, reference⟩
  · rintro ⟨name, reads, reference⟩
    obtain ⟨entry, found, used⟩ := reads_iff.mp reads
    exact (edge_dependencies_iff found).mpr ⟨name, used, reference⟩

end LogicSection

namespace Expr

/-- Two environments with the same functions infer the same of an expression if they tell the same
of the variables outside its comparisons and calls. All of these are variables of the expression,
and from the variables of its expressions a rule has its dependencies. -/
theorem inference_consults_dependencies :
    (∀ (e : Expr) (env env' : Environment), env.functions = env'.functions →
      (∀ name, e.Consults name → env.known name = env'.known name) →
        e.infer env = e.infer env') ∧
    (∀ (e : Expr) (name : String), e.Consults name → name ∈ e.variableNames) ∧
    ∀ (logic : LogicSection) (key other : String),
      (LogicSection.dependencies logic).hasEdge key other = true ↔
        ∃ entry property text e name, logic.get? key = some entry ∧
          (property, text) ∈ entry.value.expressions ∧ parse text = .ok e ∧
          name ∈ e.variableNames ∧ referencedKey? name logic.keys = some other := by
  refine ⟨fun e env env' functions known ↦ infer_eq_of_consulted functions e known,
    fun e name consulted ↦ List.mem_eraseDups.mpr consulted.mem_names, fun logic key other ↦ ?_⟩
  rw [LogicSection.hasEdge_dependencies_iff]
  constructor
  · rintro ⟨name, ⟨entry, property, text, e, found, listed, parsed, used⟩, reference⟩
    exact ⟨entry, property, text, e, name, found, listed, parsed, used, reference⟩
  · rintro ⟨entry, property, text, e, name, found, listed, parsed, used, reference⟩
    exact ⟨name, ⟨entry, property, text, e, found, listed, parsed, used⟩, reference⟩

/-- An age that is compared and flags that are passed on may be anything, and the consent that is
negated is all that counts. -/
theorem inference_consults_dependencies_beside_comparison :
    let e : Expr := .binary .or
      (.binary .and (.binary .greaterEqual (.reference "age" 0) (.literal (.number "18") 7) 4)
        (.unary .not (.reference "consent" 18) 14) 10)
      (.call "all" [.reference "flags" 33] 29) 26
    let env := Environment.initial.insert "consent" (.inferred .boolean)
    let env' := ((Environment.initial.insert "age" (.certain .number)).insert "flags"
      (.certain .list)).insert "consent" (.inferred .boolean)
    env.functions = env'.functions ∧ (∀ name, e.Consults name → env.known name = env'.known name) ∧
      e.infer env = e.infer env' ∧ e.infer env = .inferred .boolean ∧
      e.Consults "consent" ∧ "consent" ∈ e.variableNames := by
  intro e env env'
  have alone : ∀ name, e.Consults name → name = "consent" := by
    rintro name ⟨offset, rests⟩
    dsimp only [e] at rests
    rcases rests with _ | _ | ⟨-, rests⟩ | ⟨-, rests⟩
    · rcases rests with _ | _ | ⟨-, rests⟩ | ⟨-, rests⟩
      · rcases rests with _ | _ | ⟨joins, -⟩ | ⟨joins, -⟩
        · cases joins
        · cases joins
      · rcases rests with _ | rests
        cases rests
        rfl
    · cases rests
  have known : ∀ name, e.Consults name → env.known name = env'.known name := by
    intro name consulted
    obtain rfl := alone name consulted
    decide +kernel
  have consulted : e.Consults "consent" := ⟨18, .left rfl (.right rfl (.operand .self))⟩
  exact ⟨rfl, known, inference_consults_dependencies.1 e env env' rfl known, by decide +kernel,
    consulted, inference_consults_dependencies.2.1 e "consent" consulted⟩

end Expr

end FormRules
