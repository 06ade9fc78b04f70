/-!
# Sizes

Lengths and counts are kept in 64 bits. A length that no longer fits is not a bound any more, so
`Size.checked` forgets it; where a bound has to stay a bound, `Size.saturated` stops at the largest
one.
-/

namespace FlowSafety.Size

/-- The largest size. -/
def largest : Nat := 0xFFFFFFFFFFFFFFFF

/-- The largest number of 32 bits, for what is counted in less than a size. -/
def largestSmall : Nat := 0xFFFFFFFF

/-- The size, if it fits. -/
def checked (n : Nat) : Option Nat := if n ≤ largest then some n else none

/-- The size, or the largest one in its place. -/
def saturated (n : Nat) : Nat := min n largest

theorem checked_eq_some_iff {n m : Nat} : checked n = some m ↔ n = m ∧ n ≤ largest := by
  unfold checked
  split
  · simp_all
  · simp only [reduceCtorEq, false_iff, not_and]
    omega

end FlowSafety.Size
