/-!
# Sets of characters as ranges

A set of characters is given by the ranges of its code points in ascending order, so that a look
up stops at the first range beyond the character.
-/

namespace TypedFormula.Text

/-- Whether a code point lies in one of the ranges, which ascend. -/
def inRanges (n : Nat) : List (Nat × Nat) → Bool
  | [] => false
  | (first, last) :: ranges => if n < first then false else n ≤ last || inRanges n ranges

/-- A code point that is found lies in one of the ranges. -/
theorem exists_mem_of_inRanges {n : Nat} {ranges : List (Nat × Nat)}
    (h : inRanges n ranges = true) : ∃ range ∈ ranges, range.1 ≤ n ∧ n ≤ range.2 := by
  induction ranges with
  | nil => simp [inRanges] at h
  | cons range ranges ih =>
    obtain ⟨first, last⟩ := range
    by_cases hlt : n < first
    · simp [inRanges, hlt] at h
    · by_cases hle : n ≤ last
      · exact ⟨_, List.mem_cons_self, Nat.le_of_not_lt hlt, hle⟩
      · simp only [inRanges, hlt, hle, if_false, decide_false, Bool.false_or] at h
        obtain ⟨range, hmem, hrange⟩ := ih h
        exact ⟨range, List.mem_cons_of_mem _ hmem, hrange⟩

end TypedFormula.Text
