import FlowSafety.Proofs.Interval.Corners
import Mathlib.Data.Int.Bitwise

/-!
# Conjunctions, shifts and remainders of integers

The operators on bits are those of two's complement, in which a negative integer has infinitely many
leading ones: `Int.land` and the arithmetic shift. Of the two remainders the one that rounds down is
in the remainder of the intervals. The truncating one has the sign of the dividend, so it may be
below that interval, but never above it.

* `land_bounds` — an operand that is not negative bounds the conjunction
* `atLeast_high_rem` — no remainder exceeds the upper end
* `bitAnd_shiftRight_rem_sound` — the operators on bits and the remainders are sound
-/

namespace FlowSafety

/-! ## Conjunction -/

theorem ldiff_le (m n : Nat) : m.ldiff n ≤ m := by
  -- clearing bits of `m` leaves a number all of whose bits are among those of `m`
  have hand : m &&& m.ldiff n = m.ldiff n := by
    refine Nat.eq_of_testBit_eq fun i => ?_
    rw [Nat.testBit_and, Nat.testBit_ldiff, ← Bool.and_assoc, Bool.and_self]
  rw [← hand]
  exact Nat.and_le_left

/-- An integer that is not negative clears the sign and every bit above its own. -/
theorem land_bounds {x y : Int} :
    (0 ≤ x → 0 ≤ x.land y ∧ x.land y ≤ x) ∧ (0 ≤ y → 0 ≤ x.land y ∧ x.land y ≤ y) := by
  cases x with
  | ofNat m =>
    cases y with
    | ofNat n =>
      have hand : Int.land (.ofNat m) (.ofNat n) = (m &&& n : Nat) := rfl
      rw [hand]
      exact ⟨fun _ => ⟨Int.natCast_nonneg _, Int.ofNat_le.mpr Nat.and_le_left⟩,
        fun _ => ⟨Int.natCast_nonneg _, Int.ofNat_le.mpr Nat.and_le_right⟩⟩
    | negSucc n =>
      -- a negative integer is the complement of a natural number, whose bits it clears
      have hand : Int.land (.ofNat m) (.negSucc n) = (m.ldiff n : Nat) := rfl
      rw [hand]
      exact ⟨fun _ => ⟨Int.natCast_nonneg _, Int.ofNat_le.mpr (ldiff_le m n)⟩, fun h => by omega⟩
  | negSucc m =>
    cases y with
    | ofNat n =>
      have hand : Int.land (.negSucc m) (.ofNat n) = (n.ldiff m : Nat) := rfl
      rw [hand]
      exact ⟨fun h => by omega, fun _ => ⟨Int.natCast_nonneg _, Int.ofNat_le.mpr (ldiff_le n m)⟩⟩
    | negSucc n => exact ⟨fun h => by omega, fun h => by omega⟩

namespace Interval

open FlowSafety.Bound

variable {a b : Interval} {x y : Int}

theorem mem_land (hx : x ∈ a) (hy : y ∈ b) : x.land y ∈ a.bitAnd b :=
  mem_bitAnd hx hy land_bounds.1 land_bounds.2

/-! ## Truncating remainders -/

theorem natAbs_tmod_lt (h0 : y ≠ 0) : (x.tmod y).natAbs < y.natAbs := by
  rw [Int.natAbs_tmod]
  exact Nat.mod_lt _ (Int.natAbs_pos.mpr h0)

/-- The truncating remainder may be negative where the interval is not, but it does not exceed its
upper end. -/
theorem atLeast_high_rem (hx : x ∈ a) (hy : y ∈ b) (h0 : y ≠ 0) :
    (a.rem b).high.AtLeast (x.tmod y) := by
  have hlt : (x.tmod y).natAbs < y.natAbs := natAbs_tmod_lt h0
  rcases rem_cases hx hy h0 with ⟨hpos, hrem⟩ | hrem
  · -- the remainder may be below zero, but the last one before the divisor is a member
    have hlow : 0 ≤ y - 1 := by omega
    have hlast : y - 1 ∈ ofBounds (.finite 0) (.ofInt (y - 1)) :=
      mem_ofBounds hlow (isUpper_ofInt (Int.le_refl _))
    rw [hrem]
    exact hlast.2.mono (by omega)
  · rw [hrem]
    exact (mem_remainderWithin hlt (isUpper_magnitude hy).1 (isUpper_magnitude hy).2).2

/-! ## Soundness -/

/-- The conjunction of any members, the shift by any number of places and the remainder by any
divisor other than zero are in the interval that is computed for them. -/
theorem bitAnd_shiftRight_rem_sound (hx : x ∈ a) (hy : y ∈ b) :
    x.land y ∈ a.bitAnd b ∧ (0 ≤ y → x >>> y.toNat ∈ a.shiftRight b) ∧
      (y ≠ 0 → x.fmod y ∈ a.rem b ∧ (a.rem b).high.AtLeast (x.tmod y)) := by
  refine ⟨mem_land hx hy, fun h0 => ?_, fun h0 => ⟨mem_rem hx hy h0, atLeast_high_rem hx hy h0⟩⟩
  have hplaces : (y.toNat : Int) ∈ b := by
    rw [Int.toNat_of_nonneg h0]
    exact hy
  exact mem_shiftRight hx hplaces

/-- A dividend below 64 bits, which the two remainders send to different sides of zero. -/
theorem bitAnd_shiftRight_rem_belowWords :
    (-2 ^ 70 - 20 : Int) ∈ atMost (-1) ∧ (7 : Int) ∈ range 1 7 ∧
      (-2 ^ 70 - 20 : Int).land 7 ∈ (atMost (-1)).bitAnd (range 1 7) ∧
      (-2 ^ 70 - 20 : Int) >>> 7 ∈ (atMost (-1)).shiftRight (range 1 7) ∧
      (-2 ^ 70 - 20 : Int).fmod 7 ∈ (atMost (-1)).rem (range 1 7) ∧
      ((atMost (-1)).rem (range 1 7)).high.AtLeast ((-2 ^ 70 - 20 : Int).tmod 7) := by
  have hx : (-2 ^ 70 - 20 : Int) ∈ atMost (-1) := by decide
  have hy : (7 : Int) ∈ range 1 7 := by decide
  obtain ⟨hand, hshift, hrem⟩ := bitAnd_shiftRight_rem_sound hx hy
  obtain ⟨hfloor, htruncated⟩ := hrem (by decide)
  exact ⟨hx, hy, hand, hshift (by decide), hfloor, htruncated⟩

end Interval

end FlowSafety
