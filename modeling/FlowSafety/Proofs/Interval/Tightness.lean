import FlowSafety.Proofs.Interval.Corners
import FlowSafety.Proofs.Interval.Order

/-!
# Products and quotients are tight

Each corner of a box is a pair of members, so the operation at a corner is one of the results that
the hull of the corners has to hold. As long as no corner leaves 64 bits the ends of the hull are
such results, and no smaller interval holds them all. An end that saturates is not: it stands for
more than the results.

* `CornersFit` — a box with finite ends, at whose corners an operation stays within 64 bits
* `IsAttained` — both ends of an interval are results of an operation on members
* `mul_div_sound_and_tight` — products and quotients hold every result and attain their ends
-/

namespace FlowSafety

/-- The bound is the result of an operation on a member of each of two intervals. -/
def Bound.IsResult (f : Int → Int → Int) (a b : Interval) (c : Bound) : Prop :=
  ∃ x ∈ a, ∃ y ∈ b, ∃ v : Int64, c = .finite v ∧ v.toInt = f x y

namespace Interval

variable {f : Int → Int → Int} {F : Bound → Bound → Bound} {a b : Interval}

/-! ## Boxes -/

/-- The ends of both intervals are finite, and at each pair of them the operation stays within
64 bits. -/
def CornersFit (f : Int → Int → Int) (a b : Interval) : Prop :=
  ∃ l h l' h' : Int64, a = ⟨.finite l, .finite h⟩ ∧ b = ⟨.finite l', .finite h'⟩ ∧
    ∀ v ∈ [l, h], ∀ w ∈ [l', h'],
      Int64.minValue.toInt ≤ f v.toInt w.toInt ∧ f v.toInt w.toInt ≤ Int64.maxValue.toInt

/-- Both ends of an interval are results of the operation on members of the operands. -/
structure IsAttained (f : Int → Int → Int) (a b r : Interval) : Prop where
  low : r.low.IsResult f a b
  high : r.high.IsResult f a b

/-- The ends of an interval between finite bounds are members. -/
theorem toInt_mem_of_ends {l h v : Int64} (hle : l.toInt ≤ h.toInt) (hv : v ∈ [l, h]) :
    v.toInt ∈ (⟨.finite l, .finite h⟩ : Interval) := by
  simp only [List.mem_cons, List.not_mem_nil, or_false] at hv
  rcases hv with rfl | rfl
  · exact ⟨Int.le_refl v.toInt, hle⟩
  · exact ⟨hle, Int.le_refl v.toInt⟩

/-! ## Hulls -/

/-- The ends of the hull of finite bounds are among the bounds. -/
theorem hull_ends_mem {bs : List Bound} (hbs : bs ≠ [])
    (hfinite : ∀ b ∈ bs, ∃ v : Int64, b = .finite v) :
    (hull bs).low ∈ bs ∧ (hull bs).high ∈ bs := by
  cases bs with
  | nil => contradiction
  | cons b bs =>
    have hmin : bs.foldl min b ∈ b :: bs := foldl_mem_of_choice min_choice b bs
    have hmax : bs.foldl max b ∈ b :: bs := foldl_mem_of_choice max_choice b bs
    obtain ⟨v, hv⟩ := hfinite _ hmin
    obtain ⟨w, hw⟩ := hfinite _ hmax
    have hlow : bs.foldl min b ≠ .posInf := by simp [hv]
    have hhigh : bs.foldl max b ≠ .negInf := by simp [hw]
    -- neither end is pulled back
    rw [hull, ofBounds_of_le (foldl_min_le hmax), Bound.asLow_eq hlow, Bound.asHigh_eq hhigh]
    exact ⟨hmin, hmax⟩

/-- The hull of the corners attains its ends, for an operation on bounds that is exact on finite
ones. -/
theorem isAttained_hull_corners
    (hF : ∀ v w : Int64, F (.finite v) (.finite w) = .ofInt (f v.toInt w.toInt))
    (ha : a.isEmpty = false) (hb : b.isEmpty = false) (hfit : CornersFit f a b) :
    IsAttained f a b (hull (corners F a b)) := by
  obtain ⟨l, h, l', h', rfl, rfl, hfit⟩ := hfit
  have hle : l.toInt ≤ h.toInt := low_le_high ha
  have hle' : l'.toInt ≤ h'.toInt := low_le_high hb
  have hcorner : ∀ v ∈ [l, h], ∀ w ∈ [l', h'],
      (F (.finite v) (.finite w)).IsResult f ⟨.finite l, .finite h⟩ ⟨.finite l', .finite h'⟩ := by
    intro v hv w hw
    obtain ⟨hmin, hmax⟩ := hfit v hv w hw
    refine ⟨v.toInt, toInt_mem_of_ends hle hv, w.toInt, toInt_mem_of_ends hle' hw, Int64.ofInt _,
      ?_, Bound.toInt_ofInt_of_fits (not_lt.mpr hmin) (not_lt.mpr hmax)⟩
    rw [hF, Bound.ofInt, if_neg (not_lt.mpr hmin), if_neg (not_lt.mpr hmax)]
  have hcorners : ∀ c ∈ corners F ⟨.finite l, .finite h⟩ ⟨.finite l', .finite h'⟩,
      c.IsResult f ⟨.finite l, .finite h⟩ ⟨.finite l', .finite h'⟩ := by
    intro c hc
    simp only [corners, List.mem_cons, List.not_mem_nil, or_false] at hc
    rcases hc with rfl | rfl | rfl | rfl <;> exact hcorner _ (by simp) _ (by simp)
  obtain ⟨hlow, hhigh⟩ := hull_ends_mem (List.cons_ne_nil _ _) fun c hc => by
    obtain ⟨-, -, -, -, v, hv, -⟩ := hcorners c hc
    exact ⟨v, hv⟩
  exact ⟨hcorners _ hlow, hcorners _ hhigh⟩

/-! ## Products and quotients -/

theorem div_eq_hull (ha : a.isEmpty = false) (hb : b.isEmpty = false) (h0 : (0 : Int) ∉ b) :
    a.div b = hull (corners .div a b) := by
  have hzero : b.contains 0 = false := by
    rw [← Bool.not_eq_true, contains_iff]
    exact h0
  simp [div, ha, hb, hzero]

/-- Products and quotients truncated toward zero are sound for all members, those beyond 64 bits
included. On a box whose corners fit 64 bits they are tight: both ends are results. -/
theorem mul_div_sound_and_tight (a b : Interval) :
    (∀ x ∈ a, ∀ y ∈ b, x * y ∈ a.mul b ∧ (y ≠ 0 → x.tdiv y ∈ a.div b)) ∧
      (a.isEmpty = false → b.isEmpty = false →
        (CornersFit (· * ·) a b → IsAttained (· * ·) a b (a.mul b)) ∧
          (CornersFit Int.tdiv a b → (0 : Int) ∉ b → IsAttained Int.tdiv a b (a.div b))) := by
  refine ⟨fun x hx y hy => ⟨mem_mul hx hy, fun _ => mem_div hx hy⟩, fun ha hb => ⟨?_, ?_⟩⟩
  · intro hfit
    rw [mul_eq_hull ha hb]
    exact isAttained_hull_corners (fun _ _ => rfl) ha hb hfit
  · intro hfit h0
    rw [div_eq_hull ha hb h0]
    exact isAttained_hull_corners (fun _ _ => rfl) ha hb hfit

/-- Operands of both signs by a divisor that is negative. -/
theorem mul_div_attained_negativeDivisor :
    (20 * -5 : Int) ∈ (range (-7) 20).mul (range (-5) (-2)) ∧
      Int.tdiv 20 (-3) ∈ (range (-7) 20).div (range (-5) (-2)) ∧
      IsAttained (· * ·) (range (-7) 20) (range (-5) (-2)) (range (-100) 35) ∧
      IsAttained Int.tdiv (range (-7) 20) (range (-5) (-2)) (range (-10) 3) := by
  obtain ⟨hsound, htight⟩ := mul_div_sound_and_tight (range (-7) 20) (range (-5) (-2))
  obtain ⟨hmul, hdiv⟩ := htight (by decide) (by decide)
  refine ⟨(hsound 20 (by decide) (-5) (by decide)).1,
    (hsound 20 (by decide) (-3) (by decide)).2 (by decide),
    hmul ⟨-7, 20, -5, -2, by decide, by decide, ?_⟩,
    hdiv ⟨-7, 20, -5, -2, by decide, by decide, ?_⟩ (by decide)⟩
  all_goals
    intro v hv w hw
    simp only [List.mem_cons, List.not_mem_nil, or_false] at hv hw
    rcases hv with rfl | rfl <;> rcases hw with rfl | rfl <;> decide

end Interval

end FlowSafety
