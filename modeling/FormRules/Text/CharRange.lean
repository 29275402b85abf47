/-!
# Ranges of characters

A character class of the Unicode standard is given here as the ascending list of its maximal
ranges of code points. Membership is a search through that list.
-/

namespace FormRules.Text

/-- Whether a code point lies in one of the closed ranges `(first, last)`. -/
def inRanges (ranges : List (Nat × Nat)) (code : Nat) : Bool :=
  ranges.any fun range ↦ range.1 ≤ code && code ≤ range.2

theorem inRanges_eq_true_iff {ranges : List (Nat × Nat)} {code : Nat} :
    inRanges ranges code = true ↔ ∃ range ∈ ranges, range.1 ≤ code ∧ code ≤ range.2 := by
  simp [inRanges, List.any_eq_true]

end FormRules.Text
