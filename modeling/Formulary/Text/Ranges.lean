/-! # Sets of characters given by ranges

A property of characters that a standard fixes is a table of closed ranges of code points. -/

namespace Formulary.Text

/-- Closed ranges of code points, in increasing order. -/
abbrev Ranges := List (Nat × Nat)

def Ranges.contains (ranges : Ranges) (c : Char) : Bool :=
  ranges.any fun r ↦ decide (r.1 ≤ c.toNat) && decide (c.toNat ≤ r.2)

theorem Ranges.contains_iff {ranges : Ranges} {c : Char} :
    ranges.contains c = true ↔ ∃ r ∈ ranges, r.1 ≤ c.toNat ∧ c.toNat ≤ r.2 := by
  simp [Ranges.contains]

end Formulary.Text
