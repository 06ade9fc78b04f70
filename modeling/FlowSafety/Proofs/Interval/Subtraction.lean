import FlowSafety.Proofs.Interval.Order
import FlowSafety.Proofs.Walk.Summary

/-!
# Differences of intervals

Subtraction adds the negated ends of the subtrahend, so an end may saturate twice: when it is
negated and when it is added. The upper end of a difference stays an upper end. The lower end does
not where the subtrahend ends at the least integer of 64 bits. Its negation does not fit, goes to
`+inf`, and is pulled back to the greatest integer, which may be above a difference.

* `mem_sub_iff` — which differences are in the result
* `forall_mem_sub_iff` — which intervals have all of their differences in the result
* `sub_misses_difference` — two intervals that do not, and a loop that passes for bounded
-/

namespace FlowSafety

namespace Bound

variable {b : Bound} {z : Int}

/-! ## Negated ends -/

/-- An integer that fits with its opposite: all but the least one. -/
theorem toInt_ofInt_neg {v : Int64} (hv : v ≠ Int64.minValue) :
    ofInt (-v.toInt) = .finite (Int64.ofInt (-v.toInt)) ∧
      (Int64.ofInt (-v.toInt)).toInt = -v.toInt := by
  have hmin : Int64.minValue.toInt = -2 ^ 63 := Int64.toInt_minValue
  have hmax : Int64.maxValue.toInt = 2 ^ 63 - 1 := Int64.toInt_maxValue
  have hle := v.toInt_le
  have hge := v.minValue_le_toInt
  have hne : v.toInt ≠ Int64.minValue.toInt := fun h => hv (Int64.toInt_inj.mp h)
  have hlo : ¬ -v.toInt < Int64.minValue.toInt := by omega
  have hhi : ¬ Int64.maxValue.toInt < -v.toInt := by omega
  exact ⟨by rw [ofInt, if_neg hlo, if_neg hhi], toInt_ofInt_of_fits hlo hhi⟩

theorem neg_least : (Bound.finite Int64.minValue).neg = .posInf := by rfl

/-- A lower end turns into an upper one. It saturates upward only, where this does no harm. -/
theorem atLeast_neg (h : b.AtMost z) : b.neg.AtLeast (-z) := by
  cases b with
  | negInf => trivial
  | posInf => exact h.elim
  | finite v =>
    by_cases hv : v = Int64.minValue
    · rw [hv, neg_least]
      trivial
    · obtain ⟨hfits, hvalue⟩ := toInt_ofInt_neg hv
      rw [neg, hfits, AtLeast, hvalue]
      exact Int.neg_le_neg h

/-- An upper end turns into a lower one, unless it is the least integer. -/
theorem atMost_neg (h : b.AtLeast z) (hleast : b ≠ .finite Int64.minValue) : b.neg.AtMost (-z) := by
  cases b with
  | negInf => exact h.elim
  | posInf => trivial
  | finite v =>
    obtain ⟨hfits, hvalue⟩ := toInt_ofInt_neg fun hv => hleast (congrArg Bound.finite hv)
    rw [neg, hfits, AtMost, hvalue]
    exact Int.neg_le_neg h

end Bound

namespace Interval

open FlowSafety.Bound

variable {a b : Interval} {x y : Int}

/-! ## Members -/

/-- The upper end of a difference. -/
theorem isUpper_sub (hx : x ∈ a) (hy : y ∈ b) :
    (Bound.add .posInf a.high b.low.neg).IsUpper (x - y) := by
  rw [Int.sub_eq_add_neg]
  exact isUpper_add hx.2 (atLeast_neg hy.1)

/-- The lower end of a difference, where the subtrahend does not end at the least integer. -/
theorem isLower_sub (hx : x ∈ a) (hy : y ∈ b) (hleast : b.high ≠ .finite Int64.minValue) :
    (Bound.add .negInf a.low b.high.neg).IsLower (x - y) := by
  rw [Int.sub_eq_add_neg]
  exact isLower_add hx.1 (atMost_neg hy.2 hleast)

/-- Less an interval that ends at the least integer, an interval that is bounded below becomes the
greatest integer and what is above it. -/
theorem sub_least (hx : x ∈ a) (hy : y ∈ b) (hleast : b.high = .finite Int64.minValue)
    (hlow : a.low ≠ .negInf) : a.sub b = ⟨.finite Int64.maxValue, .posInf⟩ := by
  have hnegLow : b.low.neg = .posInf := by
    have hle : b.low ≤ .finite Int64.minValue :=
      hleast ▸ le_of_atMost_atLeast hy.1 hy.2
    cases hb : b.low with
    | negInf => rfl
    | posInf => exact (hb ▸ hle).elim
    | finite v =>
      have hv : v.toInt ≤ Int64.minValue.toInt := by
        rw [hb] at hle
        exact hle
      rw [Int64.toInt_inj.mp (Int.le_antisymm hv v.minValue_le_toInt)]
      exact neg_least
  have haddLow : Bound.add .negInf a.low .posInf = .posInf := by
    cases h : a.low with
    | negInf => exact absurd h hlow
    | _ => rfl
  have haddHigh : Bound.add .posInf a.high .posInf = .posInf := by
    cases a.high <;> rfl
  unfold sub
  rw [if_neg (not_isEmpty_or hx hy), hleast, neg_least, hnegLow, haddLow, haddHigh]
  rfl

/-- A difference of members is in the difference of the intervals, unless the lower end is the
negated least integer and the difference is below the greatest one. -/
theorem mem_sub_iff (hx : x ∈ a) (hy : y ∈ b) :
    x - y ∈ a.sub b ↔
      (b.high = .finite Int64.minValue → a.low ≠ .negInf → Int64.maxValue.toInt ≤ x - y) := by
  constructor
  · intro hmem hleast hlow
    rw [sub_least hx hy hleast hlow] at hmem
    exact hmem.1
  · intro h
    by_cases hleast : b.high = .finite Int64.minValue
    · by_cases hlow : a.low = .negInf
      · -- the two infinities meet in the lower end, which stays unbounded
        unfold sub
        rw [if_neg (not_isEmpty_or hx hy)]
        refine mem_ofBounds ?_ (isUpper_sub hx hy)
        rw [hlow, hleast, neg_least]
        exact isLower_negInf
      · rw [sub_least hx hy hleast hlow]
        exact ⟨h hleast hlow, trivial⟩
    · unfold sub
      rw [if_neg (not_isEmpty_or hx hy)]
      exact mem_ofBounds (isLower_sub hx hy hleast) (isUpper_sub hx hy)

/-! ## Intervals -/

/-- All differences of members are in the difference of two intervals, unless the subtrahend ends at
the least integer and the other interval starts at a finite end below `-1`. -/
theorem forall_mem_sub_iff (ha : a.IsProper) (hb : b.IsProper) :
    (∀ x ∈ a, ∀ y ∈ b, x - y ∈ a.sub b) ↔
      ¬ (b.high = .finite Int64.minValue ∧ ∃ v : Int64, a.low = .finite v ∧ v.toInt < -1) := by
  have hmin : Int64.minValue.toInt = -2 ^ 63 := Int64.toInt_minValue
  have hmax : Int64.maxValue.toInt = 2 ^ 63 - 1 := Int64.toInt_maxValue
  constructor
  · rintro h ⟨hleast, v, hlow, hv⟩
    -- the two ends that are computed with make the least difference
    have hx := ha.low_mem hlow
    have hy := hb.high_mem hleast
    have hne : a.low ≠ .negInf := by
      rw [hlow]
      exact Bound.noConfusion
    have hle := (mem_sub_iff hx hy).mp (h _ hx _ hy) hleast hne
    omega
  · intro h x hx y hy
    refine (mem_sub_iff hx hy).mpr fun hleast hne => ?_
    cases hlow : a.low with
    | negInf => exact absurd hlow hne
    | posInf => exact absurd hlow ha.low_ne
    | finite v =>
      have hv : ¬ v.toInt < -1 := fun hv => h ⟨hleast, v, hlow, hv⟩
      have hvx : v.toInt ≤ x := by
        have hmost := hx.1
        rw [hlow] at hmost
        exact hmost
      have hyleast : y ≤ Int64.minValue.toInt := by
        have hmost := hy.2
        rw [hleast] at hmost
        exact hmost
      omega

/-- From `-1` on the greatest integer is no more than any difference. -/
theorem forall_mem_sub_fromMinusOne :
    (range (-1) 5).IsProper ∧ (constant Int64.minValue).IsProper ∧
      ∀ x ∈ range (-1) 5, ∀ y ∈ constant Int64.minValue,
        x - y ∈ (range (-1) 5).sub (constant Int64.minValue) := by
  have ha : (range (-1) 5).IsProper := ⟨by decide, by decide, by decide⟩
  have hb : (constant Int64.minValue).IsProper := ⟨by decide, by decide, by decide⟩
  refine ⟨ha, hb, (forall_mem_sub_iff ha hb).mpr ?_⟩
  rintro ⟨-, v, hlow, hv⟩
  cases hlow
  exact absurd hv (by decide)

/-! ## A missing difference -/

/-- A count that is computed by subtracting the least integer from `-5`. -/
def differenceCount : Path :=
  { version := pathVersion
    branches := []
    steps :=
      [⟨.source (.ofInteger "n" .i64), none⟩,
        ⟨.numeric .sub [.const (-5), .const Int64.minValue], none⟩, ⟨.numeric .neg [], none⟩,
        ⟨.numeric .add [.const Int64.maxValue], none⟩, ⟨.sink .loopBound, none⟩] }

/-- The difference of `-5` and the least integer fits 64 bits and is not in the difference of their
intervals. A loop that runs as often as it is short of the greatest integer runs `4` times, and
passes for one that never runs. -/
theorem sub_misses_difference :
    (constant (-5)).IsProper ∧ (constant Int64.minValue).IsProper ∧
      -5 ∈ constant (-5) ∧ Int64.minValue.toInt ∈ constant Int64.minValue ∧
      -5 - Int64.minValue.toInt ∉ (constant (-5)).sub (constant Int64.minValue) ∧
      -(-5 - Int64.minValue.toInt) + Int64.maxValue.toInt = 4 ∧
      ((Classifier.ofEntries 3 []).classify differenceCount).outcome = .safe := by
  refine ⟨⟨by decide, by decide, by decide⟩, ⟨by decide, by decide, by decide⟩, by decide,
    by decide, by decide, by decide, by decide +kernel⟩

end Interval

end FlowSafety
