import FlowSafety.Proofs.Interval.Arithmetic
import Mathlib.Algebra.Order.Ring.Int
import Mathlib.Order.MinMax

/-!
# Intervals by inclusion

An interval lies in another one if its members do. For an interval that is written canonically and
has a member this is a matter of the ends.

* `Interval.isCanonical_iff` — canonical intervals are the empty one and those with proper ends
* `Interval.inside_of_subset` — inclusion by the ends
* `Interval.ofBounds_subset`, `Interval.hull_subset` — wider ends make a wider interval
* `Interval.join_subset`, `Interval.meet_subset_left` — the lattice
-/

namespace FlowSafety

namespace Bound

variable {a b : Bound} {v : Int64} {z : Int}

/-! ## Order -/

theorem negInf_le (b : Bound) : .negInf ≤ b := trivial

theorem le_posInf (b : Bound) : b ≤ .posInf := by
  cases b <;> trivial

theorem atMost_iff : b.AtMost v.toInt ↔ b ≤ .finite v := by
  cases b <;> exact Iff.rfl

theorem atLeast_iff : b.AtLeast v.toInt ↔ .finite v ≤ b := by
  cases b <;> exact Iff.rfl

theorem min_ne {c : Bound} (ha : a ≠ c) (hb : b ≠ c) : min a b ≠ c := by
  rcases min_choice a b with h | h <;> rw [h] <;> assumption

theorem max_ne {c : Bound} (ha : a ≠ c) (hb : b ≠ c) : max a b ≠ c := by
  rcases max_choice a b with h | h <;> rw [h] <;> assumption

theorem ofInt_mono {y : Int} (h : y ≤ z) : ofInt y ≤ ofInt z := by
  unfold ofInt
  split
  · exact negInf_le _
  · next hylo =>
    rw [if_neg (by omega : ¬ z < Int64.minValue.toInt)]
    split
    · next hyhi =>
      rw [if_pos (by omega : Int64.maxValue.toInt < z)]
    · next hyhi =>
      split
      · exact le_posInf _
      · next hzhi =>
        show (Int64.ofInt y).toInt ≤ (Int64.ofInt z).toInt
        rw [toInt_ofInt_of_fits hylo hyhi, toInt_ofInt_of_fits (by omega) hzhi]
        exact h

/-! ## Ends of intervals -/

/-- The bound as the lower end of a canonical interval. -/
def asLow (b : Bound) : Bound := if b = .posInf then .finite Int64.maxValue else b

/-- The bound as the upper end of a canonical interval. -/
def asHigh (b : Bound) : Bound := if b = .negInf then .finite Int64.minValue else b

theorem asLow_eq (h : b ≠ .posInf) : b.asLow = b := if_neg h

theorem asHigh_eq (h : b ≠ .negInf) : b.asHigh = b := if_neg h

theorem asLow_ne (b : Bound) : b.asLow ≠ .posInf := by
  unfold asLow
  split
  · exact Bound.noConfusion
  · next h => exact h

theorem asHigh_ne (b : Bound) : b.asHigh ≠ .negInf := by
  unfold asHigh
  split
  · exact Bound.noConfusion
  · next h => exact h

theorem asLow_mono (h : a ≤ b) : a.asLow ≤ b.asLow := by
  cases b with
  | posInf =>
    cases a with
    | negInf => trivial
    | finite v => exact v.toInt_le
    | posInf => exact le_refl _
  | _ =>
    cases a with
    | posInf => exact h.elim
    | _ => exact h

theorem asHigh_mono (h : a ≤ b) : a.asHigh ≤ b.asHigh := by
  cases a with
  | negInf =>
    cases b with
    | negInf => exact le_refl _
    | finite v => exact v.minValue_le_toInt
    | posInf => trivial
  | _ =>
    cases b with
    | negInf => exact h.elim
    | _ => exact h

/-- Ends that are not inverted are not inverted by pulling them back. -/
theorem asLow_le_asHigh (h : a ≤ b) : a.asLow ≤ b.asHigh := by
  cases a with
  | negInf => trivial
  | posInf =>
    cases b with
    | posInf => trivial
    | _ => exact h.elim
  | finite v =>
    cases b with
    | negInf => exact h.elim
    | _ => exact h

end Bound

namespace Interval

open FlowSafety.Bound (asLow asHigh)

variable {a a' b b' c iv iv' : Interval} {low low' high high' : Bound} {z : Int}

/-! ## Inclusion -/

/-- Every member of the one is a member of the other. -/
instance : HasSubset Interval := ⟨fun a b => ∀ z : Int, z ∈ a → z ∈ b⟩

theorem subset_refl (a : Interval) : a ⊆ a := fun _ h => h

theorem subset_trans (hab : a ⊆ b) (hbc : b ⊆ c) : a ⊆ c := fun z h => hbc z (hab z h)

theorem subset_top (a : Interval) : a ⊆ top := fun _ _ => mem_top

theorem empty_subset (a : Interval) : empty ⊆ a := fun _ h => h.1.elim

theorem subset_of_ends (hlow : b.low ≤ a.low) (hhigh : a.high ≤ b.high) : a ⊆ b :=
  fun _ h => ⟨h.1.of_le hlow, h.2.of_le hhigh⟩

/-- The test for a 64-bit integer decides membership. -/
theorem contains_iff {v : Int64} : a.contains v = true ↔ v.toInt ∈ a := by
  constructor
  · intro h
    simp only [contains, Bool.and_eq_true, decide_eq_true_eq] at h
    exact ⟨Bound.atMost_iff.mpr h.1.2, Bound.atLeast_iff.mpr h.2⟩
  · intro h
    simp only [contains, isEmpty_eq_false_of_mem h, Bool.not_false, Bool.true_and,
      Bool.and_eq_true, decide_eq_true_eq]
    exact ⟨Bound.atMost_iff.mp h.1, Bound.atLeast_iff.mp h.2⟩

/-! ## Canonical intervals -/

theorem ofBounds_of_lt (h : high < low) : ofBounds low high = empty := if_pos h

theorem ofBounds_of_le (h : low ≤ high) : ofBounds low high = ⟨low.asLow, high.asHigh⟩ :=
  if_neg (not_lt_of_ge h)

/-- The interval is written as the constructor writes it. -/
def IsCanonical (iv : Interval) : Prop := ofBounds iv.low iv.high = iv

instance (iv : Interval) : Decidable iv.IsCanonical :=
  inferInstanceAs (Decidable (ofBounds iv.low iv.high = iv))

theorem isCanonical_empty : empty.IsCanonical := rfl

theorem isCanonical_top : top.IsCanonical := rfl

theorem isCanonical_ofBounds (low high : Bound) : (ofBounds low high).IsCanonical := by
  rcases lt_or_ge high low with h | h
  · rw [ofBounds_of_lt h]
    exact isCanonical_empty
  · rw [ofBounds_of_le h, IsCanonical, ofBounds_of_le (Bound.asLow_le_asHigh h),
      Bound.asLow_eq (Bound.asLow_ne low), Bound.asHigh_eq (Bound.asHigh_ne high)]

/-- An operation that is empty on an empty operand. -/
theorem isCanonical_guarded {d : Interval} (h : d.IsCanonical) :
    (if a.isEmpty || b.isEmpty then empty else d).IsCanonical := by
  split
  · exact isCanonical_empty
  · exact h

theorem isCanonical_constant (v : Int64) : (constant v).IsCanonical :=
  ofBounds_of_le (le_refl (Bound.finite v))

theorem isCanonical_hull (bs : List Bound) : (hull bs).IsCanonical := by
  cases bs with
  | nil => exact isCanonical_top
  | cons b bs => exact isCanonical_ofBounds _ _

theorem low_le_high (hempty : a.isEmpty = false) : a.low ≤ a.high :=
  not_lt.mp (of_decide_eq_false hempty)

theorem IsCanonical.eq_empty (h : a.IsCanonical) (hempty : a.isEmpty = true) : a = empty :=
  h.symm.trans (ofBounds_of_lt (of_decide_eq_true hempty))

/-- The ends are not inverted, and neither of them is at the infinity of the other. -/
structure IsProper (a : Interval) : Prop where
  low_le_high : a.low ≤ a.high
  low_ne : a.low ≠ .posInf
  high_ne : a.high ≠ .negInf

/-- A canonical interval that is not empty has proper ends. -/
theorem IsCanonical.isProper (h : a.IsCanonical) (hempty : a.isEmpty = false) : a.IsProper := by
  have hle : a.low ≤ a.high := low_le_high hempty
  have heq : (⟨a.low.asLow, a.high.asHigh⟩ : Interval) = a := (ofBounds_of_le hle).symm.trans h
  refine ⟨hle, ?_, ?_⟩
  · rw [← heq]
    exact Bound.asLow_ne _
  · rw [← heq]
    exact Bound.asHigh_ne _

/-- A finite lower end is a member. -/
theorem IsProper.low_mem {v : Int64} (h : a.IsProper) (hlow : a.low = .finite v) : v.toInt ∈ a := by
  have hself : (Bound.finite v).AtLeast v.toInt := Int.le_refl v.toInt
  refine ⟨?_, hself.of_le (hlow ▸ h.low_le_high)⟩
  rw [hlow]
  exact Int.le_refl v.toInt

/-- A finite upper end is a member. -/
theorem IsProper.high_mem {v : Int64} (h : a.IsProper) (hhigh : a.high = .finite v) :
    v.toInt ∈ a := by
  have hself : (Bound.finite v).AtMost v.toInt := Int.le_refl v.toInt
  refine ⟨hself.of_le (hhigh ▸ h.low_le_high), ?_⟩
  rw [hhigh]
  exact Int.le_refl v.toInt

/-- Canonical are the empty interval and those with proper ends. -/
theorem isCanonical_iff : a.IsCanonical ↔ a = empty ∨ a.IsProper := by
  constructor
  · intro h
    cases hempty : a.isEmpty with
    | true => exact Or.inl (h.eq_empty hempty)
    | false => exact Or.inr (h.isProper hempty)
  · rintro (rfl | h)
    · exact isCanonical_empty
    · rw [IsCanonical, ofBounds_of_le h.low_le_high, Bound.asLow_eq h.low_ne,
        Bound.asHigh_eq h.high_ne]

/-- Below every integer there is a member, if the lower end is infinite. -/
theorem exists_mem_le (hlow : a.low = .negInf) (hhigh : a.high ≠ .negInf) (k : Int) :
    ∃ z ∈ a, z ≤ k := by
  cases hh : a.high with
  | negInf => exact absurd hh hhigh
  | finite v =>
    refine ⟨min k v.toInt, ⟨?_, ?_⟩, Int.min_le_left _ _⟩
    · rw [hlow]
      trivial
    · rw [hh]
      exact Int.min_le_right _ _
  | posInf =>
    refine ⟨k, ⟨?_, ?_⟩, Int.le_refl k⟩
    · rw [hlow]
      trivial
    · rw [hh]
      trivial

/-- Above every integer there is a member, if the upper end is infinite. -/
theorem exists_le_mem (hhigh : a.high = .posInf) (hlow : a.low ≠ .posInf) (k : Int) :
    ∃ z ∈ a, k ≤ z := by
  cases hl : a.low with
  | posInf => exact absurd hl hlow
  | finite v =>
    refine ⟨max k v.toInt, ⟨?_, ?_⟩, Int.le_max_left _ _⟩
    · rw [hl]
      exact Int.le_max_right _ _
    · rw [hhigh]
      trivial
  | negInf =>
    refine ⟨k, ⟨?_, ?_⟩, Int.le_refl k⟩
    · rw [hl]
      trivial
    · rw [hhigh]
      trivial

/-- No interval around one with proper ends starts above it. -/
theorem IsProper.low_le_of_subset (ha : a.IsProper) (h : a ⊆ b) : b.low ≤ a.low := by
  cases hl : a.low with
  | posInf => exact absurd hl ha.low_ne
  | finite v => exact Bound.atMost_iff.mp (h v.toInt (ha.low_mem hl)).1
  | negInf =>
    cases hb : b.low with
    | negInf => exact Bound.negInf_le _
    | finite w =>
      -- there is a member below the end of the larger interval
      obtain ⟨z, hz, hzw⟩ := exists_mem_le hl ha.high_ne (w.toInt - 1)
      have hlow : (Bound.finite w).AtMost z := hb ▸ (h z hz).1
      have hwz : w.toInt ≤ z := hlow
      omega
    | posInf =>
      obtain ⟨z, hz, -⟩ := exists_mem_le hl ha.high_ne 0
      have hlow : Bound.posInf.AtMost z := hb ▸ (h z hz).1
      exact hlow.elim

/-- No interval around one with proper ends stops below it. -/
theorem IsProper.high_le_of_subset (ha : a.IsProper) (h : a ⊆ b) : a.high ≤ b.high := by
  cases hh : a.high with
  | negInf => exact absurd hh ha.high_ne
  | finite v => exact Bound.atLeast_iff.mp (h v.toInt (ha.high_mem hh)).2
  | posInf =>
    cases hb : b.high with
    | posInf => exact Bound.le_posInf _
    | finite w =>
      obtain ⟨z, hz, hzw⟩ := exists_le_mem hh ha.low_ne (w.toInt + 1)
      have hhigh : (Bound.finite w).AtLeast z := hb ▸ (h z hz).2
      have hwz : z ≤ w.toInt := hhigh
      omega
    | negInf =>
      obtain ⟨z, hz, -⟩ := exists_le_mem hh ha.low_ne 0
      have hhigh : Bound.negInf.AtLeast z := hb ▸ (h z hz).2
      exact hhigh.elim

/-- The interval is not inverted, and its ends are between those of another one. -/
structure Inside (a b : Interval) : Prop where
  nonempty : a.low ≤ a.high
  low : b.low ≤ a.low
  high : a.high ≤ b.high

/-- A canonical interval that is not empty lies in another one with its ends. -/
theorem inside_of_subset (ha : a.IsCanonical) (hempty : a.isEmpty = false) (h : a ⊆ b) :
    a.Inside b :=
  have hproper := ha.isProper hempty
  ⟨hproper.low_le_high, hproper.low_le_of_subset h, hproper.high_le_of_subset h⟩

theorem Inside.isEmpty_left (h : a.Inside b) : a.isEmpty = false :=
  decide_eq_false (not_lt_of_ge h.nonempty)

theorem Inside.isEmpty_right (h : a.Inside b) : b.isEmpty = false :=
  decide_eq_false (not_lt_of_ge (h.low.trans (h.nonempty.trans h.high)))

/-! ## Construction -/

/-- Wider ends make a wider interval. -/
theorem ofBounds_subset (hlow : low' ≤ low) (hhigh : high ≤ high') :
    ofBounds low high ⊆ ofBounds low' high' := by
  rcases lt_or_ge high low with h | h
  · rw [ofBounds_of_lt h]
    exact empty_subset _
  · rw [ofBounds_of_le h, ofBounds_of_le (hlow.trans (h.trans hhigh))]
    exact subset_of_ends (Bound.asLow_mono hlow) (Bound.asHigh_mono hhigh)

/-- A fold that always picks one of two ends with one of the elements. -/
theorem foldl_mem_of_choice {f : Bound → Bound → Bound} (hf : ∀ a b, f a b = a ∨ f a b = b)
    (b : Bound) (bs : List Bound) : bs.foldl f b ∈ b :: bs := by
  induction bs generalizing b with
  | nil => exact List.mem_cons_self
  | cons c bs ih =>
    rw [List.foldl_cons]
    rcases List.mem_cons.mp (ih (f b c)) with h | h
    · rw [h]
      rcases hf b c with hchoice | hchoice
      · rw [hchoice]
        exact List.mem_cons_self
      · rw [hchoice]
        exact List.mem_cons_of_mem _ List.mem_cons_self
    · exact List.mem_cons_of_mem _ (List.mem_cons_of_mem _ h)

/-- Bounds that lie between others have their hull within that of the others. -/
theorem hull_subset {bs bs' : List Bound} (hlow : ∀ b ∈ bs, ∃ c ∈ bs', c ≤ b)
    (hhigh : ∀ b ∈ bs, ∃ c ∈ bs', b ≤ c) (hbs : bs ≠ []) : hull bs ⊆ hull bs' := by
  cases bs with
  | nil => contradiction
  | cons b bs =>
    obtain ⟨l, hl, hle⟩ := hlow _ (foldl_mem_of_choice min_choice b bs)
    obtain ⟨u, hu, hge⟩ := hhigh _ (foldl_mem_of_choice max_choice b bs)
    cases bs' with
    | nil => exact subset_top _
    | cons b' bs' =>
      exact ofBounds_subset ((foldl_min_le hl).trans hle) (hge.trans (le_foldl_max hu))

/-- Operations that are empty on an empty operand are monotone if they are on the other ones. -/
theorem guarded_subset {d d' : Interval} (ha : a.IsCanonical) (hb : b.IsCanonical) (haa : a ⊆ a')
    (hbb : b ⊆ b') (h : a.Inside a' → b.Inside b' → d ⊆ d') :
    (if a.isEmpty || b.isEmpty then empty else d) ⊆
      (if a'.isEmpty || b'.isEmpty then empty else d') := by
  split
  · exact empty_subset _
  · next hne =>
    rw [Bool.or_eq_true, not_or, Bool.not_eq_true, Bool.not_eq_true] at hne
    have hA := inside_of_subset ha hne.1 haa
    have hB := inside_of_subset hb hne.2 hbb
    rw [hA.isEmpty_right, hB.isEmpty_right]
    exact h hA hB

/-! ## Lattice -/

theorem join_subset (ha : a.IsCanonical) (hb : b.IsCanonical) (haa : a ⊆ a') (hbb : b ⊆ b') :
    a.join b ⊆ a'.join b' := by
  unfold join
  split
  · intro z hz
    exact mem_join_right (hbb z hz)
  · next hne =>
    rw [Bool.not_eq_true] at hne
    split
    · intro z hz
      exact mem_join_left (haa z hz)
    · next hne' =>
      rw [Bool.not_eq_true] at hne'
      have hA := inside_of_subset ha hne haa
      have hB := inside_of_subset hb hne' hbb
      rw [hA.isEmpty_right, hB.isEmpty_right]
      exact subset_of_ends (min_le_min hA.low hB.low) (max_le_max hA.high hB.high)

theorem isCanonical_join (ha : a.IsCanonical) (hb : b.IsCanonical) : (a.join b).IsCanonical := by
  unfold join
  split
  · exact hb
  · next hne =>
    split
    · exact ha
    · next hne' =>
      have hA := ha.isProper (Bool.not_eq_true _ ▸ hne)
      have hB := hb.isProper (Bool.not_eq_true _ ▸ hne')
      refine isCanonical_iff.mpr (Or.inr ⟨?_, ?_, ?_⟩)
      · exact (min_le_left _ _).trans (hA.low_le_high.trans (le_max_left _ _))
      · exact Bound.min_ne hA.low_ne hB.low_ne
      · exact Bound.max_ne hA.high_ne hB.high_ne

theorem isCanonical_meet (a b : Interval) : (a.meet b).IsCanonical :=
  isCanonical_guarded (isCanonical_ofBounds _ _)

theorem meet_subset_left (ha : a.IsCanonical) : a.meet b ⊆ a := by
  unfold meet
  split
  · exact empty_subset _
  · have hsubset : ofBounds (max a.low b.low) (min a.high b.high) ⊆ ofBounds a.low a.high :=
      ofBounds_subset (le_max_left _ _) (min_le_left _ _)
    rw [IsCanonical] at ha
    rwa [ha] at hsubset

end Interval

end FlowSafety
