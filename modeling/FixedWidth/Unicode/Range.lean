/-!
# Unicode/Range — membership of a code point in a table

A property of characters is a table of closed ranges, or of runs that also carry a step, since
upper and lower case letters often alternate. `inRanges` and `inRuns` are the two look-ups.
-/

namespace FixedWidth.Unicode

/-- Whether `n` lies in one of the closed ranges `(first, last)`. -/
def inRanges (table : List (Nat × Nat)) (n : Nat) : Bool :=
  table.any fun r => r.1 ≤ n && n ≤ r.2

/-- Whether `n` lies in one of the runs `(first, last, step)`: every `step`-th code point. -/
def inRuns (table : List (Nat × Nat × Nat)) (n : Nat) : Bool :=
  table.any fun r => r.1 ≤ n && n ≤ r.2.1 && (n - r.1) % r.2.2 == 0

theorem inRanges_eq_true_iff {table : List (Nat × Nat)} {n : Nat} :
    inRanges table n = true ↔ ∃ r ∈ table, r.1 ≤ n ∧ n ≤ r.2 := by
  simp [inRanges]

end FixedWidth.Unicode
