import FlowSafety.Proofs.Interval.Arithmetic
import Mathlib.Algebra.Order.Ring.Int
import Mathlib.Order.Interval.Set.Monotone
import Mathlib.Data.Int.ConditionallyCompleteOrder

/-!
# Products, quotients and shifts of intervals

Multiplication and division take the hull of the operation at the four pairs of ends. On integers
that is sound because both are monotone or antitone in each operand. An infinite end is not an
integer, so `Bound.asInt N` puts an integer of magnitude `N` in its place: where `N` is large
enough, the operation on bounds follows the one on integers as far as integers smaller in magnitude
can tell (`Bound.Follows`).

* `exists_corner_le`, `exists_corner_ge` — a value on a box lies between values at its corners
* `mem_mul`, `mem_div` — products and quotients truncated toward zero
* `mem_shiftRight` — arithmetic shifts
-/

namespace FlowSafety

/-! ## Corners of a box -/

section Corners

variable {α β γ : Type} [Preorder α] [Preorder β] [Preorder γ]

theorem le_of_monotone_or_antitone {g : α → γ} {s : Set α} {a b x : α}
    (hg : MonotoneOn g s ∨ AntitoneOn g s) (ha : a ∈ s) (hx : x ∈ s) (hb : b ∈ s) (hax : a ≤ x)
    (hxb : x ≤ b) : (g a ≤ g x ∨ g b ≤ g x) ∧ (g x ≤ g a ∨ g x ≤ g b) := by
  rcases hg with hg | hg
  · exact ⟨Or.inl (hg ha hx hax), Or.inr (hg hx hb hxb)⟩
  · exact ⟨Or.inr (hg hx hb hxb), Or.inl (hg ha hx hax)⟩

variable {f : α → β → γ} {a b x : α} {c d y : β}
  (hleft : ∀ y ∈ Set.Icc c d,
    MonotoneOn (fun x => f x y) Set.univ ∨ AntitoneOn (fun x => f x y) Set.univ)
  (hright : ∀ x, MonotoneOn (f x) (Set.Icc c d) ∨ AntitoneOn (f x) (Set.Icc c d))
  (hx : x ∈ Set.Icc a b) (hy : y ∈ Set.Icc c d)

include hleft hright hx hy

/-- Some corner of a box is at most the value inside. -/
theorem exists_corner_le :
    (f a c ≤ f x y ∨ f a d ≤ f x y) ∨ (f b c ≤ f x y ∨ f b d ≤ f x y) := by
  have hcd : c ≤ d := hy.1.trans hy.2
  have hcorner (e : α) : f e c ≤ f e y ∨ f e d ≤ f e y :=
    (le_of_monotone_or_antitone (hright e) ⟨le_refl c, hcd⟩ hy ⟨hcd, le_refl d⟩ hy.1 hy.2).1
  have hedge : f a y ≤ f x y ∨ f b y ≤ f x y :=
    (le_of_monotone_or_antitone (hleft y hy) trivial trivial trivial hx.1 hx.2).1
  rcases hedge with h | h
  · exact Or.inl ((hcorner a).imp (le_trans · h) (le_trans · h))
  · exact Or.inr ((hcorner b).imp (le_trans · h) (le_trans · h))

/-- Some corner of a box is at least the value inside. -/
theorem exists_corner_ge :
    (f x y ≤ f a c ∨ f x y ≤ f a d) ∨ (f x y ≤ f b c ∨ f x y ≤ f b d) := by
  have hcd : c ≤ d := hy.1.trans hy.2
  have hcorner (e : α) : f e y ≤ f e c ∨ f e y ≤ f e d :=
    (le_of_monotone_or_antitone (hright e) ⟨le_refl c, hcd⟩ hy ⟨hcd, le_refl d⟩ hy.1 hy.2).2
  have hedge : f x y ≤ f a y ∨ f x y ≤ f b y :=
    (le_of_monotone_or_antitone (hleft y hy) trivial trivial trivial hx.1 hx.2).2
  rcases hedge with h | h
  · exact Or.inl ((hcorner a).imp (le_trans h) (le_trans h))
  · exact Or.inr ((hcorner b).imp (le_trans h) (le_trans h))

end Corners

/-! ## Multiplication and division of integers -/

theorem mul_left_monotone_or_antitone (y : Int) :
    MonotoneOn (fun x => x * y) Set.univ ∨ AntitoneOn (fun x => x * y) Set.univ := by
  rcases Int.le_total 0 y with h | h
  · exact Or.inl fun _ _ _ _ hle => Int.mul_le_mul_of_nonneg_right hle h
  · exact Or.inr fun _ _ _ _ hle => Int.mul_le_mul_of_nonpos_right hle h

theorem mul_right_monotone_or_antitone (s : Set Int) (x : Int) :
    MonotoneOn (x * ·) s ∨ AntitoneOn (x * ·) s := by
  rcases Int.le_total 0 x with h | h
  · exact Or.inl fun _ _ _ _ hle => Int.mul_le_mul_of_nonneg_left hle h
  · exact Or.inr fun _ _ _ _ hle => Int.mul_le_mul_of_nonpos_left h hle

theorem tdiv_left_monotone_or_antitone {y : Int} (hy : y ≠ 0) :
    MonotoneOn (Int.tdiv · y) Set.univ ∨ AntitoneOn (Int.tdiv · y) Set.univ := by
  rcases Int.lt_or_gt_of_ne hy with h | h
  · refine Or.inr ?_
    intro x _ x' _ hle
    have hdiv := Int.tdiv_le_tdiv (Int.neg_pos_of_neg h) hle
    rw [Int.tdiv_neg, Int.tdiv_neg] at hdiv
    exact Int.le_of_neg_le_neg hdiv
  · exact Or.inl fun x _ x' _ hle => Int.tdiv_le_tdiv h hle

theorem tdiv_le_tdiv_of_le {x y y' : Int} (hx : 0 ≤ x) (hy : 0 < y) (hle : y ≤ y') :
    x.tdiv y' ≤ x.tdiv y := by
  have hq : 0 ≤ x.tdiv y' := Int.tdiv_nonneg hx (by omega)
  refine Int.le_tdiv_of_mul_le hy ?_
  calc x.tdiv y' * y ≤ x.tdiv y' * y' := Int.mul_le_mul_of_nonneg_left hle hq
    _ = y' * x.tdiv y' := Int.mul_comm _ _
    _ ≤ x := Int.mul_tdiv_self_le hx

/-- On divisors of one sign a quotient is monotone or antitone. -/
theorem tdiv_right_antitoneOn {c d x : Int} (h0 : 0 ∉ Set.Icc c d) (hx : 0 ≤ x) :
    AntitoneOn x.tdiv (Set.Icc c d) := by
  intro y hy y' hy' hle
  by_cases hpos : 0 < y
  · exact tdiv_le_tdiv_of_le hx hpos hle
  · have hneg : 0 < -y' := by
      have : ¬ (c ≤ 0 ∧ 0 ≤ d) := h0
      have := hy.1
      have := hy'.2
      omega
    have hdiv := tdiv_le_tdiv_of_le hx hneg (Int.neg_le_neg hle)
    rw [Int.tdiv_neg, Int.tdiv_neg] at hdiv
    exact Int.le_of_neg_le_neg hdiv

theorem tdiv_right_monotone_or_antitone {c d : Int} (h0 : 0 ∉ Set.Icc c d) (x : Int) :
    MonotoneOn x.tdiv (Set.Icc c d) ∨ AntitoneOn x.tdiv (Set.Icc c d) := by
  rcases Int.le_total 0 x with hx | hx
  · exact Or.inr (tdiv_right_antitoneOn h0 hx)
  · refine Or.inl ?_
    intro y hy y' hy' hle
    have hdiv := tdiv_right_antitoneOn h0 (Int.neg_nonneg_of_nonpos hx) hy hy' hle
    rw [Int.neg_tdiv, Int.neg_tdiv] at hdiv
    exact Int.le_of_neg_le_neg hdiv

namespace Bound

variable {N M z v w : Int} {a b : Bound}

/-! ## Bounds as integers -/

/-- The bound as an integer, with one of magnitude `N` in the place of an infinity. -/
def asInt (N : Int) : Bound → Int
  | .negInf => -N
  | .finite v => v.toInt
  | .posInf => N

theorem asInt_le (h : b.AtMost z) (hN : -N ≤ z) : b.asInt N ≤ z := by
  cases b with
  | negInf => exact hN
  | finite v => exact h
  | posInf => exact h.elim

theorem le_asInt (h : b.AtLeast z) (hN : z ≤ N) : z ≤ b.asInt N := by
  cases b with
  | negInf => exact h.elim
  | finite v => exact h
  | posInf => exact hN

/-- The bound stands for the integer as far as integers smaller in magnitude than `N` can tell. -/
def Follows (N : Int) (b : Bound) (v : Int) : Prop :=
  b = ofInt v ∨ b = .posInf ∧ N ≤ v ∨ b = .negInf ∧ v ≤ -N

theorem Follows.isLower (h : Follows N b v) (hv : v ≤ z) (hz : z < N) : b.IsLower z := by
  rcases h with rfl | ⟨rfl, hN⟩ | ⟨rfl, _⟩
  · exact isLower_ofInt hv
  · omega
  · trivial

theorem Follows.isUpper (h : Follows N b v) (hv : z ≤ v) (hz : -N < z) : b.IsUpper z := by
  rcases h with rfl | ⟨rfl, _⟩ | ⟨rfl, hN⟩
  · exact isUpper_ofInt hv
  · trivial
  · omega

/-! ## Multiplication and division of bounds -/

theorem sign_cases (hN : 1 ≤ N) (b : Bound) :
    b.sign = 0 ∧ b.asInt N = 0 ∨ b.sign = 1 ∧ 1 ≤ b.asInt N ∨ b.sign = -1 ∧ 1 ≤ -b.asInt N := by
  cases b with
  | negInf => exact Or.inr (Or.inr ⟨rfl, by simp only [asInt]; omega⟩)
  | finite v =>
    simp only [sign, asInt]
    rcases Int.lt_trichotomy v.toInt 0 with h | h | h
    · exact Or.inr (Or.inr ⟨Int.sign_eq_neg_one_of_neg h, by omega⟩)
    · exact Or.inl ⟨by rw [h]; rfl, h⟩
    · exact Or.inr (Or.inl ⟨Int.sign_eq_one_of_pos h, h⟩)
  | posInf => exact Or.inr (Or.inl ⟨rfl, hN⟩)

theorem follows_zero : Follows N (.finite 0) 0 := Or.inl rfl

theorem follows_posInf (h : N ≤ v) : Follows N (infinity 1) v := Or.inr (Or.inl ⟨rfl, h⟩)

theorem follows_negInf (h : N ≤ -v) : Follows N (infinity (-1)) v :=
  Or.inr (Or.inr ⟨rfl, by omega⟩)

/-- An infinity times a bound has the sign of both, unless the bound is zero. -/
theorem follows_infinity_mul (hN : 1 ≤ N) (ha : a = .negInf ∨ a = .posInf) (b : Bound) :
    Follows N (if a.sign * b.sign = 0 then .finite 0 else infinity (a.sign * b.sign))
      (a.asInt N * b.asInt N) := by
  rcases sign_cases hN b with ⟨hs, hb⟩ | ⟨hs, hb⟩ | ⟨hs, hb⟩
  · rw [hs, hb, Int.mul_zero, Int.mul_zero]
    exact follows_zero
  · have hle : N * 1 ≤ N * b.asInt N := Int.mul_le_mul_of_nonneg_left hb (by omega)
    rw [Int.mul_one] at hle
    rcases ha with rfl | rfl
    · rw [hs]
      refine follows_negInf ?_
      rw [asInt, Int.neg_mul, Int.neg_neg]
      exact hle
    · rw [hs]
      exact follows_posInf hle
  · have hle : N * 1 ≤ N * -b.asInt N := Int.mul_le_mul_of_nonneg_left hb (by omega)
    rw [Int.mul_one] at hle
    rcases ha with rfl | rfl
    · rw [hs]
      refine follows_posInf ?_
      rw [asInt, Int.neg_mul, ← Int.mul_neg]
      exact hle
    · rw [hs]
      refine follows_negInf ?_
      rw [← Int.mul_neg]
      exact hle

theorem follows_mul (hN : 1 ≤ N) (a b : Bound) :
    Follows N (mul a b) (a.asInt N * b.asInt N) := by
  cases a with
  | negInf => exact follows_infinity_mul hN (Or.inl rfl) b
  | posInf => exact follows_infinity_mul hN (Or.inr rfl) b
  | finite v =>
    cases b with
    | finite w => exact Or.inl rfl
    | negInf =>
      have hflip := follows_infinity_mul hN (Or.inl rfl) (.finite v)
      rw [Int.mul_comm (asInt N _), Int.mul_comm (sign _)] at hflip
      exact hflip
    | posInf =>
      have hflip := follows_infinity_mul hN (Or.inr rfl) (.finite v)
      rw [Int.mul_comm (asInt N _), Int.mul_comm (sign _)] at hflip
      exact hflip

theorem tdiv_eq_zero_of_word {v : Int64} (hM : 2 ^ 63 < M) : v.toInt.tdiv M = 0 := by
  have hlow := v.le_toInt
  have hhigh := v.toInt_lt
  rcases Int.le_total 0 v.toInt with h | h
  · exact Int.tdiv_eq_zero_of_lt h (by omega)
  · have hneg : (-v.toInt).tdiv M = 0 := Int.tdiv_eq_zero_of_lt (by omega) (by omega)
    rw [Int.neg_tdiv] at hneg
    omega

theorem asInt_le_size (hM : 2 ^ 63 < M) (b : Bound) : b.asInt M ≤ M ∧ -b.asInt M ≤ M := by
  cases b with
  | negInf => exact ⟨by simp only [asInt]; omega, by simp only [asInt]; omega⟩
  | finite v =>
    have hlow := v.le_toInt
    have hhigh := v.toInt_lt
    exact ⟨by simp only [asInt]; omega, by simp only [asInt]; omega⟩
  | posInf => exact ⟨Int.le_refl M, by simp only [asInt]; omega⟩

/-- An infinity divided by a bound that is not zero has the sign of both. -/
theorem follows_infinity_div (hN : 1 ≤ N) (hM : 2 ^ 63 < M) (ha : a = .negInf ∨ a = .posInf)
    (hb : b.sign ≠ 0) :
    Follows N (infinity (a.sign * b.sign)) ((a.asInt (N * M)).tdiv (b.asInt M)) := by
  obtain ⟨hhigh, hlow⟩ := asInt_le_size hM b
  rcases sign_cases (by omega : 1 ≤ M) b with ⟨hs, _⟩ | ⟨hs, hb⟩ | ⟨hs, hb⟩
  · exact absurd hs hb
  · have hle : N ≤ (N * M).tdiv (b.asInt M) :=
      Int.le_tdiv_of_mul_le hb (Int.mul_le_mul_of_nonneg_left hhigh (by omega))
    rcases ha with rfl | rfl
    · rw [hs]
      refine follows_negInf ?_
      rw [asInt, Int.neg_tdiv, Int.neg_neg]
      exact hle
    · rw [hs]
      exact follows_posInf hle
  · have hle : N ≤ (N * M).tdiv (-b.asInt M) :=
      Int.le_tdiv_of_mul_le hb (Int.mul_le_mul_of_nonneg_left hlow (by omega))
    rw [Int.tdiv_neg] at hle
    rcases ha with rfl | rfl
    · rw [hs]
      refine follows_posInf ?_
      rw [asInt, Int.neg_tdiv]
      exact hle
    · rw [hs]
      exact follows_negInf hle

theorem follows_div (hN : 1 ≤ N) (hM : 2 ^ 63 < M) (a : Bound) (hb : b.sign ≠ 0) :
    Follows N (div a b) ((a.asInt (N * M)).tdiv (b.asInt M)) := by
  cases a with
  | negInf => exact follows_infinity_div hN hM (Or.inl rfl) hb
  | posInf => exact follows_infinity_div hN hM (Or.inr rfl) hb
  | finite v =>
    have hzero : v.toInt.tdiv M = 0 := tdiv_eq_zero_of_word hM
    cases b with
    | finite w => exact Or.inl rfl
    | negInf =>
      simp only [asInt, Int.tdiv_neg, hzero, Int.neg_zero]
      exact follows_zero
    | posInf =>
      simp only [asInt, hzero]
      exact follows_zero

/-! ## Shifts of bounds -/

theorem shiftRight_le_shiftRight {x y : Int} (h : x ≤ y) (s : Nat) : x >>> s ≤ y >>> s := by
  rw [Int.shiftRight_eq_div_pow, Int.shiftRight_eq_div_pow]
  exact Int.ediv_le_ediv (Int.natCast_pos.mpr (Nat.two_pow_pos s)) h

theorem isLower_shiftRight (h : b.AtMost z) (s : Nat) : (b.shiftRight s).IsLower (z >>> s) := by
  cases b with
  | negInf => trivial
  | finite v => exact isLower_ofInt (shiftRight_le_shiftRight h s)
  | posInf => exact h.elim

theorem isUpper_shiftRight (h : b.AtLeast z) (s : Nat) : (b.shiftRight s).IsUpper (z >>> s) := by
  cases b with
  | negInf => exact h.elim
  | finite v => exact isUpper_ofInt (shiftRight_le_shiftRight h s)
  | posInf => trivial

end Bound

namespace Interval

open FlowSafety.Bound

variable {a b : Interval} {x y z : Int}

/-! ## Hulls of corners -/

/-- The hull of the corners of two intervals holds the result of an operation on integers that is
monotone or antitone in each operand and that the operation on bounds follows. -/
theorem mem_hull_corners {F : Bound → Bound → Bound} {f : Int → Int → Int} {N K M : Int}
    (hF : ∀ e, ∀ g ∈ [b.low, b.high], Follows N (F e g) (f (e.asInt K) (g.asInt M)))
    (hleft : ∀ y ∈ Set.Icc (b.low.asInt M) (b.high.asInt M),
      MonotoneOn (fun x => f x y) Set.univ ∨ AntitoneOn (fun x => f x y) Set.univ)
    (hright : ∀ x, MonotoneOn (f x) (Set.Icc (b.low.asInt M) (b.high.asInt M)) ∨
      AntitoneOn (f x) (Set.Icc (b.low.asInt M) (b.high.asInt M)))
    (hx : x ∈ Set.Icc (a.low.asInt K) (a.high.asInt K))
    (hy : y ∈ Set.Icc (b.low.asInt M) (b.high.asInt M)) (hlow : -N < f x y) (hhigh : f x y < N) :
    f x y ∈ hull (corners F a b) := by
  have hl (e : Bound) : Follows N (F e b.low) (f (e.asInt K) (b.low.asInt M)) :=
    hF e b.low List.mem_cons_self
  have hh (e : Bound) : Follows N (F e b.high) (f (e.asInt K) (b.high.asInt M)) :=
    hF e b.high (List.mem_cons_of_mem _ List.mem_cons_self)
  refine mem_hull ?_ ?_
  · rcases exists_corner_le hleft hright hx hy with (h | h) | (h | h)
    · exact ⟨_, by simp [corners], (hl a.low).isLower h hhigh⟩
    · exact ⟨_, by simp [corners], (hh a.low).isLower h hhigh⟩
    · exact ⟨_, by simp [corners], (hl a.high).isLower h hhigh⟩
    · exact ⟨_, by simp [corners], (hh a.high).isLower h hhigh⟩
  · rcases exists_corner_ge hleft hright hx hy with (h | h) | (h | h)
    · exact ⟨_, by simp [corners], (hl a.low).isUpper h hlow⟩
    · exact ⟨_, by simp [corners], (hh a.low).isUpper h hlow⟩
    · exact ⟨_, by simp [corners], (hl a.high).isUpper h hlow⟩
    · exact ⟨_, by simp [corners], (hh a.high).isUpper h hlow⟩

theorem mem_Icc_asInt {N : Int} (hz : z ∈ a) (hlow : -N ≤ z) (hhigh : z ≤ N) :
    z ∈ Set.Icc (a.low.asInt N) (a.high.asInt N) :=
  ⟨asInt_le hz.1 hlow, le_asInt hz.2 hhigh⟩

/-! ## Products -/

theorem mul_eq_hull (ha : a.isEmpty = false) (hb : b.isEmpty = false) :
    a.mul b = hull (corners .mul a b) := by
  simp [mul, ha, hb]

theorem mem_mul (hx : x ∈ a) (hy : y ∈ b) : x * y ∈ a.mul b := by
  rw [mul_eq_hull (isEmpty_eq_false_of_mem hx) (isEmpty_eq_false_of_mem hy)]
  -- large enough for the operands and the product
  let N : Int := x.natAbs + y.natAbs + (x * y).natAbs + 1
  have hN : N = x.natAbs + y.natAbs + (x * y).natAbs + 1 := rfl
  refine mem_hull_corners (f := (· * ·)) (N := N) (fun e g _ => follows_mul (by omega) e g)
    (fun y _ => mul_left_monotone_or_antitone y)
    (mul_right_monotone_or_antitone _)
    (mem_Icc_asInt hx (by omega) (by omega)) (mem_Icc_asInt hy (by omega) (by omega)) ?_ ?_
  · show -N < x * y
    omega
  · show x * y < N
    omega

/-! ## Quotients -/

theorem zero_notMem_Icc_asInt {M : Int} (hM : 0 < M) (hb : b.isEmpty = false)
    (h0 : b.contains 0 = false) : 0 ∉ Set.Icc (b.low.asInt M) (b.high.asInt M) := by
  rintro ⟨hlow, hhigh⟩
  have hl : b.low ≤ .finite 0 := by
    cases hc : b.low with
    | negInf => trivial
    | finite v => rw [hc] at hlow; exact hlow
    | posInf => rw [hc] at hlow; exact absurd hM (Int.not_lt.mpr hlow)
  have hh : Bound.finite 0 ≤ b.high := by
    cases hc : b.high with
    | negInf =>
      rw [hc] at hhigh
      simp only [asInt] at hhigh
      omega
    | finite v => rw [hc] at hhigh; exact hhigh
    | posInf => trivial
  unfold contains at h0
  rw [hb, decide_eq_true hl, decide_eq_true hh] at h0
  contradiction

/-- The quotient truncated toward zero. If the divisor may be zero, the result is any integer. -/
theorem mem_div (hx : x ∈ a) (hy : y ∈ b) : x.tdiv y ∈ a.div b := by
  unfold div
  rw [if_neg (not_isEmpty_or hx hy)]
  split
  · exact mem_top
  · next hzero =>
    -- `M` is beyond every divisor, and `N * M` so far out that its quotients are beyond the result
    let M : Int := 2 ^ 63 + y.natAbs + 1
    let N : Int := x.natAbs + (x.tdiv y).natAbs + 1
    have hM : M = 2 ^ 63 + y.natAbs + 1 := rfl
    have hN : N = x.natAbs + (x.tdiv y).natAbs + 1 := rfl
    have hNM : N * 1 ≤ N * M := Int.mul_le_mul_of_nonneg_left (by omega) (by omega)
    have hy' : y ∈ Set.Icc (b.low.asInt M) (b.high.asInt M) :=
      mem_Icc_asInt hy (by omega) (by omega)
    have h0 : 0 ∉ Set.Icc (b.low.asInt M) (b.high.asInt M) :=
      zero_notMem_Icc_asInt (by omega) (isEmpty_eq_false_of_mem hy) (Bool.not_eq_true _ ▸ hzero)
    have hsign : ∀ g ∈ [b.low, b.high], g.sign ≠ 0 := by
      have hle : b.low.asInt M ≤ b.high.asInt M := Int.le_trans hy'.1 hy'.2
      intro g hg hs
      have hz : g.asInt M = 0 := by
        rcases sign_cases (by omega : 1 ≤ M) g with ⟨_, hz⟩ | ⟨hs', _⟩ | ⟨hs', _⟩ <;> omega
      rcases List.mem_cons.mp hg with rfl | hg
      · exact h0 ⟨Int.le_of_eq hz, hz ▸ hle⟩
      · obtain rfl := List.mem_singleton.mp hg
        exact h0 ⟨hz ▸ hle, Int.le_of_eq hz.symm⟩
    refine mem_hull_corners (f := Int.tdiv) (N := N) (K := N * M)
      (fun e g hg => follows_div (by omega) (by omega) e (hsign g hg))
      (fun y hy => tdiv_left_monotone_or_antitone fun hy0 => h0 (hy0 ▸ hy))
      (tdiv_right_monotone_or_antitone h0) (mem_Icc_asInt hx (by omega) (by omega)) hy'
      (by omega) (by omega)

/-! ## Shifts -/

theorem shiftRight_le_of_le {x : Int} {s t : Nat} (hx : 0 ≤ x) (h : s ≤ t) :
    x >>> t ≤ x >>> s := by
  obtain ⟨k, rfl⟩ := Nat.exists_eq_add_of_le h
  rw [Int.shiftRight_add]
  exact Int.shiftRight_le_of_nonneg (Int.le_shiftRight_of_nonneg hx)

theorem le_shiftRight_of_le {x : Int} {s t : Nat} (hx : x ≤ 0) (h : s ≤ t) :
    x >>> s ≤ x >>> t := by
  obtain ⟨k, rfl⟩ := Nat.exists_eq_add_of_le h
  rw [Int.shiftRight_add]
  exact Int.le_shiftRight_of_nonpos (Int.shiftRight_le_of_nonpos hx)

/-- The arithmetic shift to the right, which rounds down. -/
theorem mem_shiftRight {s : Nat} (hx : x ∈ a) (hs : (s : Int) ∈ b) :
    x >>> s ∈ a.shiftRight b := by
  unfold shiftRight
  rw [if_neg (not_isEmpty_or hx hs)]
  split
  · next least most hlow hhigh =>
    have hle : least.toInt ≤ s := by
      have h : b.low.AtMost s := hs.1
      rw [hlow] at h
      exact h
    have hge : s ≤ most.toInt := by
      have h : b.high.AtLeast s := hs.2
      rw [hhigh] at h
      exact h
    split
    · exact mem_top
    · have hls : least.toInt.toNat ≤ s := by omega
      have hsm : s ≤ most.toInt.toNat := by omega
      have hlow (k : Nat) := isLower_shiftRight hx.1 k
      have hhigh (k : Nat) := isUpper_shiftRight hx.2 k
      rcases Int.le_total 0 x with h0 | h0
      · refine mem_hull ?_ ?_
        · exact ⟨_, by simp, (hlow _).mono (shiftRight_le_of_le h0 hsm)⟩
        · exact ⟨_, by simp, (hhigh _).mono (shiftRight_le_of_le h0 hls)⟩
      · refine mem_hull ?_ ?_
        · exact ⟨_, by simp, (hlow _).mono (le_shiftRight_of_le h0 hls)⟩
        · exact ⟨_, by simp, (hhigh _).mono (le_shiftRight_of_le h0 hsm)⟩
  · exact mem_top

end Interval

end FlowSafety
