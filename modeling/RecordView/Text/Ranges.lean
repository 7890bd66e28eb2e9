/-!
# Sets of code points as sorted ranges

A property of characters is given by a list of closed ranges of code points.  `inRanges` is
membership in their union (`inRanges_iff`).
-/

namespace RecordView

namespace Text

/-- Whether code point `n` lies in one of the closed ranges. -/
def inRanges (ranges : List (Nat × Nat)) (n : Nat) : Bool :=
  ranges.any fun range => range.1 ≤ n && n ≤ range.2

theorem inRanges_iff {ranges : List (Nat × Nat)} {n : Nat} :
    inRanges ranges n = true ↔ ∃ range ∈ ranges, range.1 ≤ n ∧ n ≤ range.2 := by
  simp [inRanges, List.any_eq_true]

end Text

end RecordView
