/-!
# Sorted ranges of code points

A character class is given by ranges of code points in increasing order, ends included.
`inRanges` walks them and stops at the first range that begins behind the code point, so that the
frequent characters, which come first, are decided at once.
-/

namespace Metrology.Text

/-- Whether `n` lies in one of `ranges`, which are in increasing order and contain their ends. -/
def inRanges : List (Nat × Nat) → Nat → Bool
  | [], _ => false
  | (low, high) :: rest, n => if n < low then false else n ≤ high || inRanges rest n

/-- A code point of the class lies between the ends of one of its ranges. -/
theorem exists_of_inRanges {ranges : List (Nat × Nat)} {n : Nat} (h : inRanges ranges n = true) :
    ∃ r ∈ ranges, r.1 ≤ n ∧ n ≤ r.2 := by
  induction ranges with
  | nil => simp [inRanges] at h
  | cons r rest ih =>
    obtain ⟨low, high⟩ := r
    simp only [inRanges] at h
    split at h
    · simp at h
    · rename_i hl
      by_cases hh : n ≤ high
      · exact ⟨(low, high), by simp, by simpa using hl, hh⟩
      · have h' : inRanges rest n = true := by simpa [hh] using h
        obtain ⟨r, hr, hb⟩ := ih h'
        exact ⟨r, by simp [hr], hb⟩

end Metrology.Text
