import FormRules.Proofs.Scope.Agreement
import FormRules.Proofs.Scope.Occurrence
import Mathlib.Data.List.TakeWhile
import Mathlib.Tactic.Common

/-!
# The names that rules and fields add

Every name has a root, which is what stands before its first dot. Field paths have one common root.
If no key has a dot, the names that a rule adds have its key for their root, so the root of a name
tells which rule may add it and, unless it is the root of field paths, which rule it refers to.
-/

namespace FormRules

/-- What stands before the first dot of a name, or all of it if it has none. -/
def nameRoot (name : String) : String := String.ofList (name.toList.takeWhile (· ≠ '.'))

theorem toList_within (path name : String) :
    (Field.within path name).toList = path.toList ++ '.' :: name.toList := by
  rw [Field.within, String.toList_append, String.toList_append, List.append_assoc]
  rfl

theorem within_injective (path : String) : Function.Injective (Field.within path) := by
  intro a b same
  have tails := congrArg String.toList same
  rw [toList_within, toList_within, List.append_cancel_left_eq, List.cons.injEq] at tails
  exact String.toList_injective tails.2

theorem nameRoot_of_notMem {name : String} (plain : '.' ∉ name.toList) : nameRoot name = name := by
  have all : ∀ c ∈ name.toList, decide (c ≠ '.') = true := by
    intro c hc
    exact decide_eq_true fun e ↦ plain (e ▸ hc)
  rw [nameRoot, List.takeWhile_eq_self_iff.2 all, String.ofList_toList]

theorem nameRoot_within (path name : String) :
    nameRoot (Field.within path name) = nameRoot path := by
  rw [nameRoot, nameRoot, toList_within, List.takeWhile_append]
  split
  · rename_i undotted
    rw [List.takeWhile_cons_of_neg (by decide), List.append_nil,
      (List.takeWhile_prefix _).eq_of_length undotted]
  · rfl

/-! ## Keys without dots -/

/-- No key of a section has a dot, and none is the root of field paths. -/
def LogicSection.Plain (logic : LogicSection) : Prop :=
  ∀ key ∈ logic.keys, '.' ∉ key.toList ∧ key ≠ fieldRoot

theorem referencedKey?_eq_root {logic : LogicSection} (plain : logic.Plain) {name : String}
    (h : nameRoot name ∈ logic.keys) : referencedKey? name logic.keys = some (nameRoot name) := by
  rw [referencedKey?]
  split
  · rename_i member
    rw [nameRoot_of_notMem (plain name member).1]
  · rename_i absent
    have dotted : '.' ∈ name.toList := by
      by_contra undotted
      rw [nameRoot_of_notMem undotted] at h
      exact absent h
    exact if_pos ⟨dotted, (plain _ h).2, h⟩

/-! ## Field paths -/

theorem nameRoot_foldl_within (path : String) (outer : List String) :
    nameRoot (outer.foldl Field.within path) = nameRoot path := by
  induction outer generalizing path with
  | nil => rfl
  | cons first rest ih => exact (ih _).trans (nameRoot_within path first)

theorem nameRoot_valuePath (path : String) (outer : List String) (id : String) :
    nameRoot (Field.valuePath path outer id) = nameRoot path := by
  rw [Field.valuePath, nameRoot_within, nameRoot_within, nameRoot_foldl_within]

theorem nameRoot_types {fields : Fields} {maxDepth : Nat} {entry : String × ValueType}
    (h : entry ∈ (fields.types fieldRoot maxDepth).entries) : nameRoot entry.1 = fieldRoot := by
  obtain ⟨outer, id, field, -, -, -, listed⟩ :=
    Field.mem_exposedAll_iff.1 (Keyed.mem_ofList h)
  have root : nameRoot entry.1 = nameRoot (Field.valuePath fieldRoot outer id) := by
    rcases List.mem_cons.1 listed with rfl | listed
    · rfl
    · obtain ⟨property, -, rfl⟩ := List.mem_map.1 listed
      exact nameRoot_within _ _
  rw [root, nameRoot_valuePath, nameRoot_of_notMem (by decide)]

/-! ## Adding names -/

namespace Environment

variable {env : Environment} {names : List (String × Inference)} {name : String}

@[simp] theorem functions_insertAll (env : Environment) (names : List (String × Inference)) :
    (env.insertAll names).functions = env.functions := by
  induction names generalizing env with
  | nil => rfl
  | cons added rest ih => exact ih (env.insert added.1 added.2)

theorem get?_insertAll_of_notMem (h : ∀ added ∈ names, added.1 ≠ name) :
    (env.insertAll names).get? name = env.get? name := by
  induction names generalizing env with
  | nil => rfl
  | cons added rest ih =>
    obtain ⟨ne, further⟩ := List.forall_mem_cons.1 h
    have kept : (env.insert added.1 added.2).get? name = env.get? name := by
      rw [get?_insert, if_neg ne]
    exact (ih further).trans kept

theorem get?_insertAll {inference : Inference} (nodup : (names.map Prod.fst).Nodup)
    (h : (name, inference) ∈ names) : (env.insertAll names).get? name = some inference := by
  induction names generalizing env with
  | nil => cases h
  | cons added rest ih =>
    obtain ⟨fresh, nodup⟩ := List.nodup_cons.1 nodup
    rcases List.mem_cons.1 h with rfl | h
    · have last : ∀ other ∈ rest, other.1 ≠ name := by
        intro other member e
        exact fresh (List.mem_map.2 ⟨other, member, e⟩)
      refine (get?_insertAll_of_notMem last).trans ?_
      rw [get?_insert, if_pos rfl]
    · exact ih nodup h

/-- Names of which nothing is known tell nothing of any name. -/
theorem known_insertAll_of_unknown (h : ∀ added ∈ names, added.2 = .unknown)
    (unknown : env.known name = .unknown) : (env.insertAll names).known name = .unknown := by
  induction names generalizing env with
  | nil => exact unknown
  | cons added rest ih =>
    obtain ⟨added_unknown, further⟩ := List.forall_mem_cons.1 h
    refine ih further ?_
    rw [known, get?_insert]
    split
    · exact added_unknown
    · exact unknown

theorem get?_ofFields {fields : Fields} {maxDepth : Nat} (h : nameRoot name ≠ fieldRoot) :
    (ofFields fields maxDepth).get? name = none := by
  refine get?_insertAll_of_notMem ?_
  rintro added member rfl
  obtain ⟨path, listed, rfl⟩ := List.mem_map.1 member
  exact h (nameRoot_types listed)

end Environment

end FormRules
