import FlowSafety.Interval.Basic
import Mathlib.Order.MinMax

/-!
# Bounds and the integers between them

Bounds are linearly ordered, from `negInf` up to `posInf`.

An operation on intervals computes its ends one by one, and an end that does not fit 64 bits becomes
an infinity. `Bound.IsLower` and `Bound.IsUpper` read such an end: a lower end that went to `+inf`
says that the integer lies beyond the largest one of 64 bits, and an upper end that went to `-inf`
that it lies beyond the smallest.

* `Bound.instLinearOrder` — the order of bounds, with `min` and `max` as the operations take them
* `isLower_ofInt`, `isUpper_ofInt` — an exact end stays an end when it is sent to 64 bits
* `Interval.mem_ofBounds` — an integer between two ends is in the interval that they make
* `Interval.mem_hull` — an integer between two of several bounds is in their hull
-/

namespace FlowSafety

/-- A fold that keeps the better of two is at least as good as every element. -/
theorem foldl_rel_of_mem {α : Type} {r : α → α → Prop} {f : α → α → α} (hrefl : ∀ a, r a a)
    (htrans : ∀ {a b c}, r a b → r b c → r a c) (hleft : ∀ a b, r (f a b) a)
    (hright : ∀ a b, r (f a b) b) {xs : List α} {a x : α} (hx : x ∈ a :: xs) :
    r (xs.foldl f a) x := by
  induction xs generalizing a x with
  | nil =>
    obtain rfl := List.mem_singleton.mp hx
    exact hrefl x
  | cons b xs ih =>
    rw [List.foldl_cons]
    have hhead : r (xs.foldl f (f a b)) (f a b) := ih List.mem_cons_self
    rcases List.mem_cons.mp hx with rfl | hx
    · exact htrans hhead (hleft x b)
    · rcases List.mem_cons.mp hx with rfl | hx
      · exact htrans hhead (hright a x)
      · exact ih (List.mem_cons_of_mem _ hx)

namespace Bound

variable {a b c : Bound} {v : Int64} {y z : Int}

/-! ## Order -/

protected theorem le_refl (a : Bound) : a ≤ a := by
  cases a with
  | finite v => exact Int.le_refl v.toInt
  | _ => trivial

protected theorem le_total (a b : Bound) : a ≤ b ∨ b ≤ a := by
  cases a <;> cases b <;> simp only [LE.le, Le, or_true, true_or, or_self]
  exact Int.le_total _ _

protected theorem le_trans (hab : a ≤ b) (hbc : b ≤ c) : a ≤ c := by
  cases a <;> cases b <;> cases c <;> simp_all only [LE.le, Le]
  exact Int.le_trans hab hbc

protected theorem le_antisymm (hab : a ≤ b) (hba : b ≤ a) : a = b := by
  cases a with
  | negInf =>
    cases b with
    | negInf => rfl
    | _ => exact hba.elim
  | posInf =>
    cases b with
    | posInf => rfl
    | _ => exact hab.elim
  | finite v =>
    cases b with
    | negInf => exact hab.elim
    | posInf => exact hba.elim
    | finite w => rw [Int64.toInt_inj.mp (Int.le_antisymm hab hba)]

instance : LinearOrder Bound where
  le_refl := Bound.le_refl
  le_trans _ _ _ := Bound.le_trans
  lt_iff_le_not_ge a b := ⟨fun h => ⟨(Bound.le_total a b).resolve_right h, h⟩, fun h => h.2⟩
  le_antisymm _ _ := Bound.le_antisymm
  le_total := Bound.le_total
  toDecidableLE := decidableLe
  min_def _ _ := rfl
  max_def a b := by
    -- `max` compares the other way round, which matters only where both hold
    show (if b ≤ a then a else b) = if a ≤ b then b else a
    split
    · next hba =>
      split
      · next hab => exact Bound.le_antisymm hab hba
      · rfl
    · next hba => rw [if_pos ((Bound.le_total a b).resolve_right hba)]

/-! ## Order and integers -/

theorem AtMost.of_le (h : b.AtMost z) (hab : a ≤ b) : a.AtMost z := by
  cases b with
  | negInf => cases a <;> trivial
  | finite v =>
    cases a with
    | negInf => trivial
    | finite w => exact Int.le_trans hab h
    | posInf => exact hab.elim
  | posInf => exact h.elim

theorem AtLeast.of_le (h : a.AtLeast z) (hab : a ≤ b) : b.AtLeast z := by
  cases a with
  | negInf => exact h.elim
  | finite v =>
    cases b with
    | negInf => exact hab.elim
    | finite w => exact Int.le_trans h hab
    | posInf => trivial
  | posInf => cases b <;> trivial

theorem AtMost.mono (h : b.AtMost y) (hyz : y ≤ z) : b.AtMost z := by
  cases b with
  | negInf => trivial
  | finite v => exact Int.le_trans h hyz
  | posInf => exact h.elim

theorem AtLeast.mono (h : b.AtLeast z) (hyz : y ≤ z) : b.AtLeast y := by
  cases b with
  | negInf => exact h.elim
  | finite v => exact Int.le_trans hyz h
  | posInf => trivial

/-- Bounds around an integer are not inverted. -/
theorem le_of_atMost_atLeast (ha : a.AtMost z) (hb : b.AtLeast z) : a ≤ b := by
  cases a with
  | negInf => cases b <;> trivial
  | finite v =>
    cases b with
    | negInf => exact hb.elim
    | finite w => exact Int.le_trans ha hb
    | posInf => trivial
  | posInf => exact ha.elim

theorem atMost_max (ha : a.AtMost z) (hb : b.AtMost z) : (max a b).AtMost z := by
  rcases max_choice a b with h | h
  · rw [h]; exact ha
  · rw [h]; exact hb

theorem atLeast_min (ha : a.AtLeast z) (hb : b.AtLeast z) : (min a b).AtLeast z := by
  rcases min_choice a b with h | h
  · rw [h]; exact ha
  · rw [h]; exact hb

/-! ## Ends of results -/

/-- The bound, as the lower end of a result, lets the integer in. -/
def IsLower : Bound → Int → Prop
  | .negInf, _ => True
  | .finite v, z => v.toInt ≤ z
  | .posInf, z => Int64.maxValue.toInt < z

/-- The bound, as the upper end of a result, lets the integer in. -/
def IsUpper : Bound → Int → Prop
  | .negInf, z => z < Int64.minValue.toInt
  | .finite v, z => z ≤ v.toInt
  | .posInf, _ => True

theorem isLower_negInf : negInf.IsLower z := trivial

theorem isUpper_posInf : posInf.IsUpper z := trivial

theorem AtMost.isLower (h : b.AtMost z) : b.IsLower z := by
  cases b with
  | negInf => trivial
  | finite v => exact h
  | posInf => exact h.elim

theorem AtLeast.isUpper (h : b.AtLeast z) : b.IsUpper z := by
  cases b with
  | negInf => exact h.elim
  | finite v => exact h
  | posInf => trivial

theorem IsLower.of_le (h : b.IsLower z) (hab : a ≤ b) : a.IsLower z := by
  cases a with
  | negInf => trivial
  | finite v =>
    cases b with
    | negInf => exact hab.elim
    | finite w => exact Int.le_trans hab h
    | posInf => exact Int.le_of_lt (Int.lt_of_le_of_lt v.toInt_le h)
  | posInf =>
    cases b with
    | posInf => exact h
    | _ => exact hab.elim

theorem IsUpper.of_le (h : a.IsUpper z) (hab : a ≤ b) : b.IsUpper z := by
  cases b with
  | negInf =>
    cases a with
    | negInf => exact h
    | _ => exact hab.elim
  | finite v =>
    cases a with
    | negInf => exact Int.le_of_lt (Int.lt_of_lt_of_le h v.minValue_le_toInt)
    | finite w => exact Int.le_trans h hab
    | posInf => exact hab.elim
  | posInf => trivial

theorem IsLower.mono (h : b.IsLower y) (hyz : y ≤ z) : b.IsLower z := by
  cases b with
  | negInf => trivial
  | finite w => exact Int.le_trans h hyz
  | posInf => exact Int.lt_of_lt_of_le h hyz

theorem IsUpper.mono (h : b.IsUpper y) (hzy : z ≤ y) : b.IsUpper z := by
  cases b with
  | negInf => exact Int.lt_of_le_of_lt hzy h
  | finite w => exact Int.le_trans hzy h
  | posInf => trivial

theorem toInt_ofInt_of_fits (hlo : ¬ z < Int64.minValue.toInt) (hhi : ¬ Int64.maxValue.toInt < z) :
    (Int64.ofInt z).toInt = z :=
  Int64.toInt_ofInt_of_le (Int.not_lt.mp hlo) (Int.lt_add_one_of_le (Int.not_lt.mp hhi))

theorem toInt_ofCount (n : Nat) :
    (Int64.ofInt (min (n : Int) Int64.maxValue.toInt)).toInt =
      min (n : Int) Int64.maxValue.toInt := by
  have hmax : Int64.maxValue.toInt = 2 ^ 63 - 1 := Int64.toInt_maxValue
  have hmin : Int64.minValue.toInt = -2 ^ 63 := Int64.toInt_minValue
  exact toInt_ofInt_of_fits (by omega) (by omega)

/-- The bound at a count is finite, since it stops at the largest integer of 64 bits. -/
theorem ofCount_eq (n : Nat) :
    ofCount n = .finite (Int64.ofInt (min (n : Int) Int64.maxValue.toInt)) := by
  have hmax : Int64.maxValue.toInt = 2 ^ 63 - 1 := Int64.toInt_maxValue
  have hmin : Int64.minValue.toInt = -2 ^ 63 := Int64.toInt_minValue
  unfold ofCount ofInt
  rw [if_neg (by omega), if_neg (by omega)]

theorem isLower_ofInt (h : y ≤ z) : (ofInt y).IsLower z := by
  unfold ofInt
  split
  · trivial
  · split
    · next hy => exact Int.lt_of_lt_of_le hy h
    · next hlo hhi => rw [IsLower, toInt_ofInt_of_fits hlo hhi]; exact h

theorem isUpper_ofInt (h : z ≤ y) : (ofInt y).IsUpper z := by
  unfold ofInt
  split
  · next hy => exact Int.lt_of_le_of_lt h hy
  · split
    · trivial
    · next hlo hhi => rw [IsUpper, toInt_ofInt_of_fits hlo hhi]; exact h

end Bound

namespace Interval

open FlowSafety.Bound

variable {iv : Interval} {low high : Bound} {z : Int}

/-! ## Members -/

/-- An interval with a member is not inverted. -/
theorem isEmpty_eq_false_of_mem (h : z ∈ iv) : iv.isEmpty = false := by
  have hle : iv.low ≤ iv.high := le_of_atMost_atLeast h.1 h.2
  exact decide_eq_false fun hlt => hlt hle

theorem mem_top : z ∈ Interval.top := ⟨trivial, trivial⟩

theorem mem_constant {v : Int64} : z ∈ Interval.constant v ↔ z = v.toInt :=
  ⟨fun h => Int.le_antisymm h.2 h.1, fun h => ⟨Int.le_of_eq h.symm, Int.le_of_eq h⟩⟩

theorem not_mem_empty : z ∉ Interval.empty := fun h => h.1

theorem mem_atMost {v : Int64} : z ∈ atMost v ↔ z ≤ v.toInt :=
  ⟨fun h => h.2, fun h => ⟨trivial, h⟩⟩

theorem mem_atLeast {v : Int64} : z ∈ atLeast v ↔ v.toInt ≤ z :=
  ⟨fun h => h.1, fun h => ⟨h, trivial⟩⟩

/-- Ends around an integer are not inverted, however they have saturated. -/
theorem not_inverted (hlow : low.IsLower z) (hhigh : high.IsUpper z) : ¬ high < low := by
  have hrange : Int64.minValue.toInt < Int64.maxValue.toInt := by decide
  refine fun hlt => hlt ?_
  cases low with
  | negInf => cases high <;> trivial
  | finite v =>
    cases high with
    | negInf =>
      have := Int.lt_of_lt_of_le hhigh v.minValue_le_toInt
      exact absurd hlow (Int.not_le.mpr this)
    | finite w => exact Int.le_trans hlow hhigh
    | posInf => trivial
  | posInf =>
    cases high with
    | negInf => exact absurd (Int.lt_trans hlow hhigh) (Int.not_lt.mpr (Int.le_of_lt hrange))
    | finite w =>
      have := Int.lt_of_lt_of_le hlow hhigh
      exact absurd w.toInt_le (Int.not_le.mpr this)
    | posInf => trivial

/-- An integer between two ends is in the interval that they make. -/
theorem mem_ofBounds (hlow : low.IsLower z) (hhigh : high.IsUpper z) : z ∈ ofBounds low high := by
  unfold ofBounds
  rw [if_neg (not_inverted hlow hhigh)]
  constructor
  · cases low with
    | negInf => trivial
    | finite v => exact hlow
    | posInf => exact Int.le_of_lt hlow
  · cases high with
    | negInf => exact Int.le_of_lt hhigh
    | finite v => exact hhigh
    | posInf => trivial

theorem mem_range {v w : Int64} (hv : v.toInt ≤ z) (hw : z ≤ w.toInt) : z ∈ range v w :=
  mem_ofBounds hv hw

/-- A finite bound below the lower end is below that of the interval, whether it was pulled back or
not. -/
theorem le_low_ofBounds {v : Int64} (h : .finite v ≤ low) :
    .finite v ≤ (ofBounds low high).low := by
  unfold ofBounds
  split
  · trivial
  · by_cases hlow : low = .posInf
    · simp only [hlow, if_true]
      exact v.toInt_le
    · simp only [hlow, if_false]
      exact h

/-! ## Hulls -/

theorem foldl_min_le {bs : List Bound} {b c : Bound} (hc : c ∈ b :: bs) : bs.foldl min b ≤ c :=
  foldl_rel_of_mem le_refl le_trans min_le_left min_le_right hc

theorem le_foldl_max {bs : List Bound} {b c : Bound} (hc : c ∈ b :: bs) : c ≤ bs.foldl max b :=
  foldl_rel_of_mem (r := fun a b => b ≤ a) le_refl (fun h h' => le_trans h' h) le_max_left
    le_max_right hc

/-- An integer between two of several bounds is in their hull. -/
theorem mem_hull {bs : List Bound} (hlow : ∃ b ∈ bs, b.IsLower z) (hhigh : ∃ b ∈ bs, b.IsUpper z) :
    z ∈ hull bs := by
  obtain ⟨l, hl, hlow⟩ := hlow
  obtain ⟨h, hh, hhigh⟩ := hhigh
  cases bs with
  | nil => simp at hl
  | cons b bs =>
    exact mem_ofBounds (hlow.of_le (foldl_min_le hl)) (hhigh.of_le (le_foldl_max hh))

end Interval

end FlowSafety
