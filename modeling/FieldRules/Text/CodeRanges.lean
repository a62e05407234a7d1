/-!
Sets of characters given by ascending ranges of code points.
-/

namespace FieldRules.Text

/-- A set of code points as ascending ranges, both ends included. -/
abbrev CodeRanges := List (Nat × Nat)

/-- Whether a code point lies in one of the ranges. -/
def CodeRanges.holds (ranges : CodeRanges) (code : Nat) : Bool :=
  ranges.any fun r => decide (r.1 ≤ code) && decide (code ≤ r.2)

theorem CodeRanges.holds_iff {ranges : CodeRanges} {code : Nat} :
    ranges.holds code = true ↔ ∃ r ∈ ranges, r.1 ≤ code ∧ code ≤ r.2 := by
  simp [CodeRanges.holds]

end FieldRules.Text
