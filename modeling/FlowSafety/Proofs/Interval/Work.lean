import FlowSafety.Proofs.Interval.Monotone
import Mathlib.Data.ENat.Basic

/-!
# Work

The work of some loops is the product of how often each of them runs. On intervals it is a product
of upper ends, in which an end beyond 64 bits counts as an infinity, and an infinity times zero as
zero. That loses nothing: the upper end of the product is the exact product of the upper ends, sent
to 64 bits at the very end.

* `Bound.count` — how often a loop runs that counts up to a bound
* `Bound.ofWork_mul` — the exact product can be sent to 64 bits factor by factor
* `Interval.IsCounting.mul` — the upper end of a product of intervals from zero on
-/

namespace FlowSafety

namespace Bound

variable {a b : Bound} {n : ℕ∞} {k : Nat} {z : Int}

/-! ## Counts -/

/-- How often a loop runs that counts from zero up to the bound. -/
def count : Bound → ℕ∞
  | .negInf => 0
  | .finite v => (v.toInt.toNat : ℕ∞)
  | .posInf => ⊤

/-- The bound at an amount of work. -/
def ofWork : ℕ∞ → Bound
  | ⊤ => .posInf
  | (k : ℕ) => ofInt k

theorem ofWork_coe (k : Nat) : ofWork k = ofInt k := rfl

theorem zero_le_ofInt (k : Nat) : .finite 0 ≤ ofInt k := by
  have hzero : ofInt 0 = .finite 0 := rfl
  rw [← hzero]
  exact ofInt_mono (Int.natCast_nonneg k)

theorem zero_le_ofCount (k : Nat) : .finite 0 ≤ ofCount k := by
  have hmax : (0 : Int) ≤ min (k : Int) Int64.maxValue.toInt :=
    le_min (Int.natCast_nonneg k) (by decide)
  exact ofInt_mono hmax

theorem zero_le_ofWork (n : ℕ∞) : .finite 0 ≤ ofWork n := by
  cases n with
  | top => exact le_posInf _
  | coe k => exact zero_le_ofInt k

/-- Raised to zero, a bound is the one at its count. -/
theorem max_zero_eq (b : Bound) : max b (.finite 0) = ofWork b.count := by
  cases b with
  | negInf => rfl
  | posInf => rfl
  | finite v =>
    have hlow := v.minValue_le_toInt
    have hhigh := v.toInt_le
    rw [count, ofWork_coe]
    rcases Int.le_total v.toInt 0 with h | h
    · rw [Int.toNat_of_nonpos h]
      exact max_eq_right h
    · rw [Int.toNat_of_nonneg h, ofInt, if_neg (by omega), if_neg (by omega), Int64.ofInt_toInt]
      exact max_eq_left h

theorem toInt_le_count (h : b.AtLeast z) : (z.toNat : ℕ∞) ≤ b.count := by
  cases b with
  | negInf => exact h.elim
  | finite v =>
    have hle : z ≤ v.toInt := h
    exact Nat.cast_le.mpr (Int.toNat_le_toNat hle)
  | posInf => exact le_top

/-! ## Products -/

theorem mul_swap (a b : Bound) : mul a b = mul b a := by
  rw [mul_eq_ofInt (M := 2 ^ 64) (by decide), mul_eq_ofInt (M := 2 ^ 64) (by decide), Int.mul_comm]

theorem ofWork_of_large (h : 2 ^ 63 ≤ n) : ofWork n = .posInf := by
  cases n with
  | top => rfl
  | coe k =>
    have hk : 2 ^ 63 ≤ k := by exact_mod_cast h
    have hmax : Int64.maxValue.toInt = 2 ^ 63 - 1 := Int64.toInt_maxValue
    have hmin : Int64.minValue.toInt = -2 ^ 63 := Int64.toInt_minValue
    rw [ofWork_coe, ofInt, if_neg (by omega), if_pos (by omega)]

theorem ofWork_of_small (h : k < 2 ^ 63) :
    ofWork k = .finite (Int64.ofInt k) ∧ (Int64.ofInt k).toInt = k := by
  have hmax : Int64.maxValue.toInt = 2 ^ 63 - 1 := Int64.toInt_maxValue
  have hmin : Int64.minValue.toInt = -2 ^ 63 := Int64.toInt_minValue
  have hlow : ¬ (k : Int) < Int64.minValue.toInt := by omega
  have hhigh : ¬ Int64.maxValue.toInt < (k : Int) := by omega
  refine ⟨?_, toInt_ofInt_of_fits hlow hhigh⟩
  rw [ofWork_coe, ofInt, if_neg hlow, if_neg hhigh]

theorem small_or_large (n : ℕ∞) : (∃ k : ℕ, k < 2 ^ 63 ∧ n = k) ∨ 2 ^ 63 ≤ n := by
  rcases lt_or_ge n (2 ^ 63) with h | h
  · obtain ⟨k, rfl⟩ := ENat.ne_top_iff_exists.mp h.ne_top
    exact Or.inl ⟨k, by exact_mod_cast h, rfl⟩
  · exact Or.inr h

theorem posInf_mul_ofWork (hn : n ≠ 0) : mul .posInf (ofWork n) = .posInf := by
  rcases small_or_large n with ⟨k, hk, rfl⟩ | hlarge
  · obtain ⟨hfin, hval⟩ := ofWork_of_small hk
    have hpos : 0 < (k : Int) := by
      have hk0 : k ≠ 0 := by exact_mod_cast hn
      omega
    rw [hfin]
    simp only [mul, sign, hval, Int.sign_eq_one_of_pos hpos]
    rfl
  · rw [ofWork_of_large hlarge]
    rfl

/-- A product with a factor beyond 64 bits is beyond them too, or zero. -/
theorem ofWork_mul_of_large {m : ℕ∞} (hm : 2 ^ 63 ≤ m) (n : ℕ∞) :
    ofWork (m * n) = mul (ofWork m) (ofWork n) := by
  rw [ofWork_of_large hm]
  by_cases hn : n = 0
  · rw [hn, mul_zero]
    rfl
  · have hge : 2 ^ 63 ≤ m * n :=
      hm.trans (le_mul_of_one_le_right' (Order.one_le_iff_ne_zero.mpr hn))
    rw [posInf_mul_ofWork hn, ofWork_of_large hge]

/-- The exact product can be sent to 64 bits factor by factor. -/
theorem ofWork_mul (m n : ℕ∞) : ofWork (m * n) = mul (ofWork m) (ofWork n) := by
  rcases small_or_large m with ⟨j, hj, rfl⟩ | hm
  · rcases small_or_large n with ⟨k, hk, rfl⟩ | hn
    · obtain ⟨hj, hjval⟩ := ofWork_of_small hj
      obtain ⟨hk, hkval⟩ := ofWork_of_small hk
      rw [hj, hk, mul, hjval, hkval, ← Nat.cast_mul, ofWork_coe, Int.natCast_mul]
    · rw [mul_swap, mul_comm]
      exact ofWork_mul_of_large hn j
  · exact ofWork_mul_of_large hm n

theorem mul_le_mul_of_nonneg {a' b' : Bound} (ha : .finite 0 ≤ a) (hb : .finite 0 ≤ b)
    (haa : a ≤ a') (hbb : b ≤ b') : mul a b ≤ mul a' b' := by
  have hM : (2 : Int) ^ 63 < 2 ^ 64 := by decide
  have ha0 : 0 ≤ a.asInt (2 ^ 64) := asInt_mono hM ha
  have hb0 : 0 ≤ b.asInt (2 ^ 64) := asInt_mono hM hb
  have haa' := asInt_mono hM haa
  rw [mul_eq_ofInt hM, mul_eq_ofInt hM]
  exact ofInt_mono (Int.mul_le_mul haa' (asInt_mono hM hbb) hb0 (ha0.trans haa'))

theorem mul_nonneg (ha : .finite 0 ≤ a) (hb : .finite 0 ≤ b) : .finite 0 ≤ mul a b :=
  mul_le_mul_of_nonneg le_rfl le_rfl ha hb

/-- Work within a ceiling is told by the bound. -/
theorem ofWork_le_ofCount :
    ofWork n ≤ ofCount k ↔ n ≤ (min k (2 ^ 63 - 1) : ℕ) := by
  have hmax : Int64.maxValue.toInt = 2 ^ 63 - 1 := Int64.toInt_maxValue
  rw [ofCount_eq]
  rcases small_or_large n with ⟨j, hj, rfl⟩ | hn
  · obtain ⟨hfin, hval⟩ := ofWork_of_small hj
    rw [hfin, Nat.cast_le]
    show (Int64.ofInt j).toInt ≤ (Int64.ofInt _).toInt ↔ _
    rw [hval, toInt_ofCount]
    omega
  · rw [ofWork_of_large hn]
    refine ⟨fun h => h.elim, fun h => ?_⟩
    have hle : ((2 ^ 63 : ℕ) : ℕ∞) ≤ (min k (2 ^ 63 - 1) : ℕ) := by
      exact_mod_cast hn.trans h
    rw [Nat.cast_le] at hle
    omega

end Bound

namespace Interval

open FlowSafety.Bound (ofWork count)

variable {a b iv : Interval} {m n : ℕ∞}

/-! ## Intervals of counts -/

/-- The interval holds counts, and at most so many. -/
structure IsCounting (iv : Interval) (n : ℕ∞) : Prop where
  nonneg : .finite 0 ≤ iv.low
  nonempty : iv.low ≤ iv.high
  high : iv.high = ofWork n

theorem IsCounting.isEmpty (h : iv.IsCounting n) : iv.isEmpty = false :=
  decide_eq_false (not_lt_of_ge h.nonempty)

/-- Ends from zero on need not be pulled back at the upper one. -/
theorem isCounting_ofBounds {low : Bound} (hlow : .finite 0 ≤ low) (hle : low ≤ ofWork n) :
    (ofBounds low (ofWork n)).IsCounting n := by
  have hhigh : (ofWork n).asHigh = ofWork n :=
    Bound.asHigh_eq fun h => absurd (Bound.zero_le_ofWork n) (by rw [h]; exact fun h => h)
  refine ⟨le_low_ofBounds hlow, ?_, ?_⟩
  · rw [ofBounds_of_le hle]
    exact Bound.asLow_le_asHigh hle
  · rw [ofBounds_of_le hle]
    exact hhigh

theorem isCounting_one : (constant 1).IsCounting 1 := ⟨by decide, by decide, rfl⟩

/-- How often a loop runs is at most the count of its upper end. -/
theorem isCounting_iterations (h : iv.isEmpty = false) :
    iv.iterations.IsCounting iv.high.count := by
  have hle : iv.low ≤ iv.high := low_le_high h
  have hzero : (constant 0).isEmpty = false := rfl
  unfold iterations maximum
  rw [h, hzero]
  show (ofBounds (max iv.low (.finite 0)) (max iv.high (.finite 0))).IsCounting _
  rw [Bound.max_zero_eq iv.high]
  refine isCounting_ofBounds (le_max_right _ _) ?_
  rw [← Bound.max_zero_eq]
  exact max_le_max hle (le_refl _)

theorem iterations_of_isEmpty (h : iv.isEmpty = true) : iv.iterations = empty := if_pos h

/-! ## Products of counts -/

theorem mul_empty_right : a.mul empty = empty := if_pos (Bool.or_true _)

/-- The upper end of a product of counts is the product of the upper ends. -/
theorem IsCounting.mul (ha : a.IsCounting m) (hb : b.IsCounting n) :
    (a.mul b).IsCounting (m * n) := by
  have hah : .finite 0 ≤ a.high := ha.nonneg.trans ha.nonempty
  have hbh : .finite 0 ≤ b.high := hb.nonneg.trans hb.nonempty
  have hproduct : Bound.mul a.high b.high = ofWork (m * n) := by
    rw [Bound.ofWork_mul, ha.high, hb.high]
  -- every corner lies between zero and that of the upper ends
  have hcorner : ∀ c ∈ corners .mul a b, .finite 0 ≤ c ∧ c ≤ ofWork (m * n) := by
    rw [← hproduct]
    intro c hc
    simp only [corners, List.mem_cons, List.not_mem_nil, or_false] at hc
    rcases hc with rfl | rfl | rfl | rfl
    · exact ⟨Bound.mul_nonneg ha.nonneg hb.nonneg,
        Bound.mul_le_mul_of_nonneg ha.nonneg hb.nonneg ha.nonempty hb.nonempty⟩
    · exact ⟨Bound.mul_nonneg ha.nonneg hbh,
        Bound.mul_le_mul_of_nonneg ha.nonneg hbh ha.nonempty (le_refl _)⟩
    · exact ⟨Bound.mul_nonneg hah hb.nonneg,
        Bound.mul_le_mul_of_nonneg hah hb.nonneg (le_refl _) hb.nonempty⟩
    · exact ⟨Bound.mul_nonneg hah hbh, le_refl _⟩
  have hlast : ofWork (m * n) ∈ corners .mul a b := by
    rw [← hproduct]
    simp [corners]
  rw [mul_eq_hull ha.isEmpty hb.isEmpty]
  show (ofBounds (List.foldl min _ _) (List.foldl max _ _)).IsCounting (m * n)
  have hmax : List.foldl max (Bound.mul a.low b.low)
      [Bound.mul a.low b.high, Bound.mul a.high b.low, Bound.mul a.high b.high] =
        ofWork (m * n) :=
    le_antisymm (hcorner _ (foldl_mem_of_choice max_choice _ _)).2 (le_foldl_max hlast)
  rw [hmax]
  exact isCounting_ofBounds (hcorner _ (foldl_mem_of_choice min_choice _ _)).1
    (foldl_min_le hlast)

end Interval

end FlowSafety
