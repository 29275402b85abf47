import FormRules.Proofs.Scope.Names
import Mathlib.Data.List.Nodup

/-!
# Chains of ids

The ids of the fieldsets in which a field stands and its own make a chain. Ids are distinct at every
level, so chains tell the fields of a tree apart. A name that is spelt by joining a chain with dots
tells chains apart only if no id has a dot.
-/

namespace FormRules

namespace Occurrence

/-- The ids on the way to the field, from that of the outermost fieldset to its own. -/
def chain (o : Occurrence) : List String := o.outer ++ [o.id]

@[simp] theorem chain_enclose (group : String) (o : Occurrence) :
    (o.enclose group).chain = group :: o.chain := rfl

theorem chain_ne_nil (o : Occurrence) : o.chain ≠ [] := by simp [chain]

end Occurrence

namespace Field

variable {entries : List (String × Field)}

/-! ## Distinct chains -/

theorem head_chain_of_mem_occurrences {id : String} {field : Field} {o : Occurrence}
    (h : o ∈ field.occurrences id) : o.chain.head? = some id := by
  rw [occurrences_eq] at h
  rcases List.mem_cons.mp h with rfl | h
  · rfl
  · obtain ⟨-, h⟩ := List.mem_ite_nil_right.mp h
    obtain ⟨below, -, rfl⟩ := List.mem_map.mp h
    simp

mutual

theorem nodup_chains : ∀ (field : Field) (id : String), field.Distinct →
    ((field.occurrences id).map Occurrence.chain).Nodup
  | ⟨type, label, description, required, visible, fields⟩, id, distinct => by
    have inner := nodup_chainsAll fields distinct
    rw [occurrences_eq, List.map_cons, List.nodup_cons]
    by_cases fieldset : type = .fieldset
    · have prefixed : ((occurrencesAll fields).map (Occurrence.enclose id)).map Occurrence.chain =
          ((occurrencesAll fields).map Occurrence.chain).map (id :: ·) := by simp
      simp only [if_pos fieldset, prefixed]
      constructor
      · -- A chain within the fieldset is longer than that of the fieldset itself.
        simp [Occurrence.chain]
      · exact inner.map List.cons_injective
    · simp [if_neg fieldset]

theorem nodup_chainsAll : ∀ entries : List (String × Field), DistinctEntries entries →
    ((occurrencesAll entries).map Occurrence.chain).Nodup
  | [], _ => List.nodup_nil
  | (id, field) :: rest, ⟨fresh, distinct, further⟩ => by
    rw [occurrencesAll, List.map_append, List.nodup_append]
    refine ⟨nodup_chains field id distinct, nodup_chainsAll rest further, ?_⟩
    simp only [List.forall_mem_map]
    intro o here o' there same
    -- Both chains would begin with the same id, which is not used again at this level.
    rw [occurrencesAll_eq_flatMap] at there
    obtain ⟨⟨other, _⟩, listed, there⟩ := List.mem_flatMap.mp there
    have first := head_chain_of_mem_occurrences here
    rw [same, head_chain_of_mem_occurrences there] at first
    cases first
    exact fresh (List.mem_map_of_mem (f := Prod.fst) listed)

end

/-- Fields that stand at different places of the list have different chains. -/
theorem pairwise_chain_ne (distinct : DistinctEntries entries) (room : Nat) :
    (entered room entries).Pairwise fun o o' ↦ o.chain ≠ o'.chain := by
  have all := List.pairwise_map.mp (nodup_chainsAll entries distinct)
  exact all.filter _

/-! ## Chains that are spelt -/

theorem foldl_within (first : String) (rest : List String) :
    rest.foldl within first = ".".intercalate (first :: rest) := by
  induction rest generalizing first with
  | nil => simp
  | cons second rest ih =>
    rw [List.foldl_cons, ih, within, String.intercalate_cons_append, String.intercalate_cons_cons]

theorem foldl_within_of_ne_nil (path : String) {names : List String} (h : names ≠ []) :
    names.foldl within path = within path (".".intercalate names) := by
  obtain ⟨first, rest, rfl⟩ := List.exists_cons_of_ne_nil h
  rw [List.foldl_cons, foldl_within, within, String.intercalate_cons_append]
  rfl

/-- Names without dots can be told from the name that they make. -/
theorem intercalate_injective {names names' : List String} (ne : names ≠ []) (ne' : names' ≠ [])
    (plain : ∀ name ∈ names, '.' ∉ name.toList) (plain' : ∀ name ∈ names', '.' ∉ name.toList)
    (h : ".".intercalate names = ".".intercalate names') : names = names' := by
  have parts : ∀ names : List String, names ≠ [] → (∀ name ∈ names, '.' ∉ name.toList) →
      (".".intercalate names).toList.splitOn '.' = names.map String.toList := by
    intro names ne plain
    rw [String.toList_intercalate]
    apply List.splitOn_intercalate
    · simpa using plain
    · simpa using ne
  have same : names.map String.toList = names'.map String.toList := by
    rw [← parts names ne plain, h, parts names' ne' plain']
  exact (List.map_inj_right fun _ _ ↦ String.toList_injective).mp same

theorem foldl_within_injective {path : String} {names names' : List String} (ne : names ≠ [])
    (ne' : names' ≠ []) (plain : ∀ name ∈ names, '.' ∉ name.toList)
    (plain' : ∀ name ∈ names', '.' ∉ name.toList)
    (h : names.foldl within path = names'.foldl within path) : names = names' := by
  rw [foldl_within_of_ne_nil path ne, foldl_within_of_ne_nil path ne'] at h
  exact intercalate_injective ne ne' plain plain' (within_injective path h)

/-- The path of a value is that of its chain. -/
theorem valuePath_eq (path : String) (outer : List String) (id : String) :
    valuePath path outer id = path ++ "." ++ ".".intercalate (outer ++ [id]) ++ ".value" := by
  have chain : (outer ++ [id]).foldl within path = within (outer.foldl within path) id := by
    rw [List.foldl_append]
    rfl
  rw [valuePath, ← chain, foldl_within_of_ne_nil path (by simp)]
  simp [within, String.append_assoc]

end Field

end FormRules
