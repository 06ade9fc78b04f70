import FlowSafety.Proofs.Interval.Bound
import Mathlib.Data.List.Forall2

/-!
# Arithmetic on intervals is sound

The result of an operation on intervals holds the result of the operation on any of their members.
The integers are mathematical ones, so nothing is said here about overflow: a member may lie beyond
64 bits on a side where the interval is unbounded.

Subtraction is not among them. The negation of the least integer of 64 bits saturates, and as the
lower end of a difference it would then cut off members.

* `mem_add`, `mem_neg`, `mem_abs`, `mem_rem`, `mem_bitAnd` — arithmetic
* `mem_join_left`, `mem_join_right`, `mem_meet` — the lattice
* `mem_minimum`, `mem_maximum`, `mem_clamp` — order
* `mem_foldl` — an operation folded over several operands
-/

namespace FlowSafety

namespace Bound

variable {a b : Bound} {y z : Int}

/-! ## Ends -/

theorem isLower_neg (h : b.AtLeast z) : b.neg.IsLower (-z) := by
  cases b with
  | negInf => exact h.elim
  | finite v => exact isLower_ofInt (Int.neg_le_neg h)
  | posInf => trivial

theorem isUpper_neg (h : b.AtMost z) : b.neg.IsUpper (-z) := by
  cases b with
  | negInf => trivial
  | finite v => exact isUpper_ofInt (Int.neg_le_neg h)
  | posInf => exact h.elim

theorem isLower_add (ha : a.AtMost y) (hb : b.AtMost z) : (add .negInf a b).IsLower (y + z) := by
  cases a with
  | negInf => cases b <;> trivial
  | finite v =>
    cases b with
    | negInf => trivial
    | finite w => exact isLower_ofInt (Int.add_le_add ha hb)
    | posInf => exact hb.elim
  | posInf => exact ha.elim

theorem isUpper_add (ha : a.AtLeast y) (hb : b.AtLeast z) : (add .posInf a b).IsUpper (y + z) := by
  cases a with
  | negInf => exact ha.elim
  | finite v =>
    cases b with
    | negInf => exact hb.elim
    | finite w => exact isUpper_ofInt (Int.add_le_add ha hb)
    | posInf => trivial
  | posInf => cases b <;> trivial

end Bound

namespace Interval

open FlowSafety.Bound

variable {a b : Interval} {x y z : Int}

/-! ## Lattice -/

theorem mem_join_left (h : z ∈ a) : z ∈ a.join b := by
  unfold join
  rw [isEmpty_eq_false_of_mem h]
  split
  · contradiction
  · split
    · exact h
    · exact ⟨h.1.of_le (min_le_left _ _), h.2.of_le (le_max_left _ _)⟩

theorem mem_join_right (h : z ∈ b) : z ∈ a.join b := by
  unfold join
  split
  · exact h
  · rw [isEmpty_eq_false_of_mem h]
    exact ⟨h.1.of_le (min_le_right _ _), h.2.of_le (le_max_right _ _)⟩

/-- Where both operands have a member, neither is inverted. -/
theorem not_isEmpty_or (hx : x ∈ a) (hy : y ∈ b) : ¬ (a.isEmpty || b.isEmpty) = true := by
  rw [isEmpty_eq_false_of_mem hx, isEmpty_eq_false_of_mem hy]
  exact Bool.false_ne_true

theorem mem_meet (ha : z ∈ a) (hb : z ∈ b) : z ∈ a.meet b := by
  unfold meet
  rw [if_neg (not_isEmpty_or ha hb)]
  exact mem_ofBounds (atMost_max ha.1 hb.1).isLower (atLeast_min ha.2 hb.2).isUpper

theorem le_low_meet {v : Int64} (h : .finite v ≤ a.low) : .finite v ≤ (a.meet b).low := by
  unfold meet
  split
  · trivial
  · exact le_low_ofBounds (le_trans h (le_max_left a.low b.low))

/-! ## Sums and signs -/

theorem mem_add (hx : x ∈ a) (hy : y ∈ b) : x + y ∈ a.add b := by
  unfold add
  rw [if_neg (not_isEmpty_or hx hy)]
  exact mem_ofBounds (isLower_add hx.1 hy.1) (isUpper_add hx.2 hy.2)

theorem mem_neg (hx : x ∈ a) : -x ∈ a.neg := by
  unfold neg
  rw [isEmpty_eq_false_of_mem hx]
  exact mem_ofBounds (isLower_neg hx.2) (isUpper_neg hx.1)

theorem mem_abs (hx : x ∈ a) : (x.natAbs : Int) ∈ a.abs := by
  unfold abs
  rw [isEmpty_eq_false_of_mem hx]
  simp only [Bool.false_eq_true, if_false]
  split
  · next h0 =>
    have hx0 : 0 ≤ x := by
      have hlow : (Bound.finite 0).IsLower x := hx.1.isLower.of_le h0
      exact hlow
    rw [Int.natAbs_of_nonneg hx0]
    exact hx
  · split
    · next h0 =>
      have hx0 : x ≤ 0 := by
        have hhigh : (Bound.finite 0).IsUpper x := hx.2.isUpper.of_le h0
        exact hhigh
      rw [Int.ofNat_natAbs_of_nonpos hx0]
      exact mem_neg hx
    · refine mem_ofBounds ?_ ?_
      · have hnn : 0 ≤ (x.natAbs : Int) := by omega
        exact hnn
      · by_cases hx0 : 0 ≤ x
        · rw [Int.natAbs_of_nonneg hx0]
          exact hx.2.isUpper.of_le (le_max_right _ _)
        · rw [Int.ofNat_natAbs_of_nonpos (by omega)]
          exact (isUpper_neg hx.1).of_le (le_max_left _ _)

/-! ## Order -/

theorem mem_minimum (hx : x ∈ a) (hy : y ∈ b) : min x y ∈ a.minimum b := by
  unfold minimum
  rw [if_neg (not_isEmpty_or hx hy)]
  refine mem_ofBounds ?_ ?_
  · rcases Int.le_total x y with h | h
    · rw [Int.min_eq_left h]
      exact hx.1.isLower.of_le (min_le_left _ _)
    · rw [Int.min_eq_right h]
      exact hy.1.isLower.of_le (min_le_right _ _)
  · exact (atLeast_min (hx.2.mono (Int.min_le_left x y)) (hy.2.mono (Int.min_le_right x y))).isUpper

theorem mem_maximum (hx : x ∈ a) (hy : y ∈ b) : max x y ∈ a.maximum b := by
  unfold maximum
  rw [if_neg (not_isEmpty_or hx hy)]
  refine mem_ofBounds ?_ ?_
  · exact (atMost_max (hx.1.mono (Int.le_max_left x y)) (hy.1.mono (Int.le_max_right x y))).isLower
  · rcases Int.le_total x y with h | h
    · rw [Int.max_eq_right h]
      exact hy.2.isUpper.of_le (le_max_right _ _)
    · rw [Int.max_eq_left h]
      exact hx.2.isUpper.of_le (le_max_left _ _)

theorem mem_clamp {lo hi : Interval} {l h : Int} (hx : x ∈ a) (hl : l ∈ lo) (hh : h ∈ hi) :
    min (max x l) h ∈ a.clamp lo hi :=
  mem_minimum (mem_maximum hx hl) hh

/-! ## Remainders -/

theorem constant?_eq_some {m : Int64} : b.constant? = some m ↔ b = constant m := by
  unfold constant?
  constructor
  · intro h
    split at h
    · next v w hlow hhigh =>
      split at h
      · next heq =>
        obtain rfl := Option.some.inj h
        obtain ⟨l, h⟩ := b
        obtain rfl : l = .finite v := hlow
        obtain rfl : h = .finite w := hhigh
        rw [← heq]
        rfl
      · contradiction
    · contradiction
  · rintro rfl
    exact if_pos rfl

/-- What the remainder by an interval with a divisor is: that by a positive constant, or one bounded
by the greatest magnitude of a divisor. -/
theorem rem_cases (hx : x ∈ a) (hy : y ∈ b) (h0 : y ≠ 0) :
    (0 < y ∧ a.rem b = ofBounds (.finite 0) (.ofInt (y - 1))) ∨
      a.rem b = remainderWithin (max b.low.neg b.high) := by
  unfold rem
  rw [if_neg (not_isEmpty_or hx hy)]
  cases hm : b.constant? with
  | none => exact Or.inr rfl
  | some m =>
    obtain rfl : y = m.toInt := mem_constant.mp (constant?_eq_some.mp hm ▸ hy)
    simp only [if_neg h0]
    split
    · next hpos => exact Or.inl ⟨hpos, rfl⟩
    · exact Or.inr rfl

/-- An integer smaller in magnitude than a divisor. -/
theorem mem_remainderWithin {m : Bound} (hz : z.natAbs < y.natAbs) (hpos : m.IsUpper y)
    (hneg : m.IsUpper (-y)) : z ∈ remainderWithin m := by
  cases m with
  | negInf => exact mem_top
  | finite m =>
    have hy1 : y ≤ m.toInt := hpos
    have hy2 : -y ≤ m.toInt := hneg
    have hlow : 1 - m.toInt ≤ z := by omega
    have hhigh : z ≤ m.toInt - 1 := by omega
    simp only [remainderWithin]
    split
    · exact mem_ofBounds (isLower_ofInt hlow) (isUpper_ofInt hhigh)
    · exact mem_top
  | posInf => exact mem_top

/-- The greater magnitude of the two ends bounds every member on both sides. -/
theorem isUpper_magnitude (hy : y ∈ b) :
    (max b.low.neg b.high).IsUpper y ∧ (max b.low.neg b.high).IsUpper (-y) :=
  ⟨hy.2.isUpper.of_le (le_max_right _ _),
    (isUpper_neg hy.1).of_le (le_max_left _ _)⟩

theorem natAbs_fmod_lt (h0 : y ≠ 0) : (x.fmod y).natAbs < y.natAbs := by
  rcases Int.lt_or_gt_of_ne h0 with h | h
  · have hlt := Int.fmod_lt_of_pos (-x) (Int.neg_pos_of_neg h)
    have hnn := Int.fmod_nonneg_of_pos (-x) (Int.neg_pos_of_neg h)
    rw [Int.neg_fmod_neg] at hlt hnn
    omega
  · have hlt := Int.fmod_lt_of_pos x h
    have hnn := Int.fmod_nonneg_of_pos x h
    omega

/-- The floor remainder, whose sign is that of the divisor. -/
theorem mem_rem (hx : x ∈ a) (hy : y ∈ b) (h0 : y ≠ 0) : x.fmod y ∈ a.rem b := by
  rcases rem_cases hx hy h0 with ⟨hpos, hrem⟩ | hrem
  · have hlow : 0 ≤ x.fmod y := Int.fmod_nonneg_of_pos x hpos
    have hhigh : x.fmod y ≤ y - 1 := Int.le_sub_one_of_lt (Int.fmod_lt_of_pos x hpos)
    rw [hrem]
    exact mem_ofBounds hlow (isUpper_ofInt hhigh)
  · rw [hrem]
    exact mem_remainderWithin (natAbs_fmod_lt h0) (isUpper_magnitude hy).1 (isUpper_magnitude hy).2

/-! ## Bit masks -/

/-- The ends of a mask. -/
theorem ends_of_mask? {m : Int64} (h : a.mask? = some m) :
    .finite 0 ≤ a.low ∧ a.high = .finite m := by
  unfold mask? at h
  split at h
  · next hnn =>
    refine ⟨of_decide_eq_true (Bool.and_eq_true_iff.mp hnn).2, ?_⟩
    cases hb : a.high with
    | finite v =>
      rw [hb] at h
      exact congrArg Bound.finite (Option.some.inj h)
    | _ =>
      rw [hb] at h
      contradiction
  · contradiction

theorem finite_of_mask? {m : Int64} (h : a.mask? = some m) (hx : x ∈ a) :
    0 ≤ x ∧ x ≤ m.toInt := by
  obtain ⟨h0, hhigh⟩ := ends_of_mask? h
  have hlow : (Bound.finite 0).IsLower x := hx.1.isLower.of_le h0
  have hle : (Bound.finite m).AtLeast x := hhigh ▸ hx.2
  exact ⟨hlow, hle⟩

/-- A result between zero and every operand that is not negative is in the conjunction. -/
theorem mem_bitAnd (hx : x ∈ a) (hy : y ∈ b) (hzx : 0 ≤ x → 0 ≤ z ∧ z ≤ x)
    (hzy : 0 ≤ y → 0 ≤ z ∧ z ≤ y) : z ∈ a.bitAnd b := by
  unfold bitAnd
  rw [if_neg (not_isEmpty_or hx hy)]
  cases hm : a.mask? with
  | some m =>
    obtain ⟨hx0, hxm⟩ := finite_of_mask? hm hx
    obtain ⟨hz0, hzx⟩ := hzx hx0
    have hzm : z ≤ m.toInt := Int.le_trans hzx hxm
    cases hn : b.mask? with
    | some n =>
      obtain ⟨hy0, hyn⟩ := finite_of_mask? hn hy
      have hzn : z ≤ n.toInt := Int.le_trans (hzy hy0).2 hyn
      have hhigh : (min (Bound.finite m) (.finite n)).AtLeast z := atLeast_min hzm hzn
      exact mem_ofBounds hz0 hhigh.isUpper
    | none => exact mem_range hz0 hzm
  | none =>
    cases hn : b.mask? with
    | some n =>
      obtain ⟨hy0, hyn⟩ := finite_of_mask? hn hy
      obtain ⟨hz0, hzy⟩ := hzy hy0
      exact mem_range hz0 (Int.le_trans hzy hyn)
    | none => exact mem_top

/-! ## Several operands -/

/-- The fold of an operation over intervals holds the fold of its counterpart over members. -/
theorem mem_foldl {f : Int → Int → Int} {F : Interval → Interval → Interval}
    (hf : ∀ {a b : Interval} {x y : Int}, x ∈ a → y ∈ b → f x y ∈ F a b) {zs : List Int}
    {ivs : List Interval} (hs : List.Forall₂ (· ∈ ·) zs ivs) (hx : x ∈ a) :
    zs.foldl f x ∈ ivs.foldl F a := by
  induction hs generalizing x a with
  | nil => exact hx
  | cons hy _ ih => exact ih (hf hx hy)

theorem mem_foldl_join_of_mem {ivs : List Interval} (hx : x ∈ a) : x ∈ ivs.foldl join a := by
  induction ivs generalizing a with
  | nil => exact hx
  | cons b ivs ih => exact ih (mem_join_left hx)

/-- The hull of several alternatives holds the members of each. -/
theorem mem_foldl_join {ivs : List Interval} (hx : x ∈ b) (hb : b ∈ a :: ivs) :
    x ∈ ivs.foldl join a := by
  induction ivs generalizing a with
  | nil =>
    obtain rfl := List.mem_singleton.mp hb
    exact hx
  | cons c ivs ih =>
    rcases List.mem_cons.mp hb with rfl | hb
    · exact mem_foldl_join_of_mem hx
    · rw [List.foldl_cons]
      rcases List.mem_cons.mp hb with rfl | hb
      · exact mem_foldl_join_of_mem (mem_join_right hx)
      · exact ih (List.mem_cons_of_mem _ hb)

end Interval

end FlowSafety
