import FlowSafety.Proofs.Interval.Corners
import FlowSafety.Proofs.Interval.Order

/-!
# Operations on intervals are monotone

Smaller operands give a smaller result. Most ends of a result are monotone in the ends of the
operands. Products, quotients and shifts are hulls of corners, and the corners of a box lie between
those of a larger one. A remainder by zero alone is the exception: nothing is known of it, while
something is known of the remainder by an interval around zero.

* `Interval.Refines` — inclusion of canonical intervals
* `Interval.hull_corners_subset` — the hull of the corners grows with the box
* `Refines.add`, `Refines.mul`, `Refines.rem` and so on — the operations
-/

namespace FlowSafety

namespace Bound

variable {a a' b b' : Bound} {M N v : Int}

/-! ## Sums and signs -/

theorem neg_antitone (h : a ≤ b) : b.neg ≤ a.neg := by
  cases a with
  | negInf => exact le_posInf _
  | finite v =>
    cases b with
    | negInf => exact h.elim
    | finite w => exact ofInt_mono (Int.neg_le_neg h)
    | posInf => trivial
  | posInf =>
    cases b with
    | posInf => trivial
    | _ => exact h.elim

theorem add_comm (conflict a b : Bound) : add conflict a b = add conflict b a := by
  cases a with
  | finite v =>
    cases b with
    | finite w => exact congrArg ofInt (Int.add_comm _ _)
    | _ => rfl
  | _ => cases b <;> rfl

theorem add_mono_left (conflict b : Bound) (h : a ≤ a') :
    add conflict a b ≤ add conflict a' b := by
  cases a with
  | negInf =>
    cases b with
    | posInf =>
      cases a' with
      | negInf => exact le_refl _
      | _ => exact le_posInf _
    | _ => exact negInf_le _
  | finite v =>
    cases a' with
    | negInf => exact h.elim
    | finite w =>
      cases b with
      | finite u => exact ofInt_mono (Int.add_le_add_right h _)
      | _ => exact le_refl _
    | posInf =>
      cases b with
      | negInf => exact negInf_le _
      | _ => exact le_posInf _
  | posInf =>
    cases a' with
    | posInf => exact le_refl _
    | _ => exact h.elim

theorem add_mono (conflict : Bound) (ha : a ≤ a') (hb : b ≤ b') :
    add conflict a b ≤ add conflict a' b' := by
  refine (add_mono_left conflict b ha).trans ?_
  rw [add_comm, add_comm conflict a']
  exact add_mono_left conflict a' hb

/-! ## Products and quotients -/

/-- A bound that follows an integer as far as 64 bits go is the bound at that integer. -/
theorem Follows.eq_ofInt (h : Follows N b v) (hN : 2 ^ 63 < N) : b = ofInt v := by
  have hmin : Int64.minValue.toInt = -2 ^ 63 := Int64.toInt_minValue
  have hmax : Int64.maxValue.toInt = 2 ^ 63 - 1 := Int64.toInt_maxValue
  rcases h with rfl | ⟨rfl, hv⟩ | ⟨rfl, hv⟩
  · rfl
  · rw [ofInt, if_neg (by omega), if_pos (by omega)]
  · rw [ofInt, if_pos (by omega)]

theorem asInt_mono (hM : 2 ^ 63 < M) (h : a ≤ b) : a.asInt M ≤ b.asInt M := by
  cases a with
  | negInf =>
    have hlow := (asInt_le_size hM b).2
    show -M ≤ b.asInt M
    omega
  | finite v =>
    cases b with
    | negInf => exact h.elim
    | finite w => exact h
    | posInf => exact (asInt_le_size hM (.finite v)).1
  | posInf =>
    cases b with
    | posInf => exact Int.le_refl _
    | _ => exact h.elim

/-- An operation that is computed on integers is monotone or antitone where that on integers is. -/
theorem monotone_or_antitone_of_asInt {G : Bound → Bound} {g : Int → Int} {s : Set Bound}
    {t : Set Int} (hM : 2 ^ 63 < M) (hG : ∀ x ∈ s, G x = ofInt (g (x.asInt M)))
    (hst : ∀ x ∈ s, x.asInt M ∈ t) (hg : MonotoneOn g t ∨ AntitoneOn g t) :
    MonotoneOn G s ∨ AntitoneOn G s := by
  refine hg.imp ?_ ?_
  · intro hg x hx y hy hxy
    rw [hG x hx, hG y hy]
    exact ofInt_mono (hg (hst x hx) (hst y hy) (asInt_mono hM hxy))
  · intro hg x hx y hy hxy
    rw [hG x hx, hG y hy]
    exact ofInt_mono (hg (hst x hx) (hst y hy) (asInt_mono hM hxy))

theorem mul_eq_ofInt (hM : 2 ^ 63 < M) (a b : Bound) :
    mul a b = ofInt (a.asInt M * b.asInt M) :=
  (follows_mul (by omega) a b).eq_ofInt hM

theorem div_eq_ofInt (hM : 2 ^ 63 < M) (a : Bound) (hb : b.sign ≠ 0) :
    div a b = ofInt ((a.asInt (M * M)).tdiv (b.asInt M)) :=
  (follows_div (by omega) hM a hb).eq_ofInt hM

theorem sign_ne_zero (hM : 1 ≤ M) (hb : b.asInt M ≠ 0) : b.sign ≠ 0 := by
  rcases sign_cases hM b with ⟨-, hz⟩ | ⟨hs, -⟩ | ⟨hs, -⟩ <;> omega

/-! ## Shifts -/

theorem shiftRight_mono (s : Nat) (h : a ≤ b) : a.shiftRight s ≤ b.shiftRight s := by
  cases a with
  | negInf => exact negInf_le _
  | finite v =>
    cases b with
    | negInf => exact h.elim
    | finite w => exact ofInt_mono (shiftRight_le_shiftRight h s)
    | posInf => exact le_posInf _
  | posInf =>
    cases b with
    | posInf => exact le_refl _
    | _ => exact h.elim

theorem shiftRight_monotone_or_antitone (a : Bound) (s : Set Nat) :
    MonotoneOn (fun n => a.shiftRight n) s ∨ AntitoneOn (fun n => a.shiftRight n) s := by
  cases a with
  | finite v =>
    rcases Int.le_total 0 v.toInt with h | h
    · exact Or.inr fun _ _ _ _ hle => ofInt_mono (Interval.shiftRight_le_of_le h hle)
    · exact Or.inl fun _ _ _ _ hle => ofInt_mono (Interval.le_shiftRight_of_le h hle)
  | _ => exact Or.inl fun _ _ _ _ _ => le_refl _

end Bound

namespace Interval

open FlowSafety.Bound (ofInt_mono neg_antitone)

variable {a a' b b' c c' : Interval}

/-- The one interval lies in the other, and both are written canonically. -/
structure Refines (a b : Interval) : Prop where
  left : a.IsCanonical
  right : b.IsCanonical
  subset : a ⊆ b

/-- Operations that are empty on an empty operand are monotone if they are on the other ones. -/
theorem guarded_refines {d d' : Interval} (ha : a.Refines a') (hb : b.Refines b')
    (hd : d.IsCanonical) (hd' : d'.IsCanonical) (h : a.Inside a' → b.Inside b' → d ⊆ d') :
    (if a.isEmpty || b.isEmpty then empty else d).Refines
      (if a'.isEmpty || b'.isEmpty then empty else d') :=
  ⟨isCanonical_guarded hd, isCanonical_guarded hd',
    guarded_subset ha.left hb.left ha.subset hb.subset h⟩

theorem IsCanonical.refines_self (h : a.IsCanonical) : a.Refines a := ⟨h, h, subset_refl a⟩

theorem Refines.trans (hab : a.Refines b) (hbc : b.Refines c) : a.Refines c :=
  ⟨hab.left, hbc.right, subset_trans hab.subset hbc.subset⟩

/-! ## Lattice -/

theorem Refines.join (ha : a.Refines a') (hb : b.Refines b') : (a.join b).Refines (a'.join b') :=
  ⟨isCanonical_join ha.left hb.left, isCanonical_join ha.right hb.right,
    join_subset ha.left hb.left ha.subset hb.subset⟩

theorem meet_refines (ha : a.IsCanonical) : (a.meet b).Refines a :=
  ⟨isCanonical_meet a b, ha, meet_subset_left ha⟩

/-! ## Sums and signs -/

theorem isCanonical_neg (a : Interval) : a.neg.IsCanonical := by
  unfold neg
  split
  · exact isCanonical_empty
  · exact isCanonical_ofBounds _ _

theorem isCanonical_abs (ha : a.IsCanonical) : a.abs.IsCanonical := by
  unfold abs
  split
  · exact isCanonical_empty
  · split
    · exact ha
    · split
      · exact isCanonical_neg a
      · exact isCanonical_ofBounds _ _

theorem Refines.add (ha : a.Refines a') (hb : b.Refines b') : (a.add b).Refines (a'.add b') := by
  refine guarded_refines ha hb (isCanonical_ofBounds _ _) (isCanonical_ofBounds _ _) fun hA hB => ?_
  exact ofBounds_subset (Bound.add_mono _ hA.low hB.low) (Bound.add_mono _ hA.high hB.high)

theorem Refines.sub (ha : a.Refines a') (hb : b.Refines b') : (a.sub b).Refines (a'.sub b') := by
  refine guarded_refines ha hb (isCanonical_ofBounds _ _) (isCanonical_ofBounds _ _) fun hA hB => ?_
  exact ofBounds_subset (Bound.add_mono _ hA.low (neg_antitone hB.high))
    (Bound.add_mono _ hA.high (neg_antitone hB.low))

theorem neg_of_inside (h : a.Inside a') : a.neg ⊆ a'.neg := by
  unfold neg
  rw [h.isEmpty_left, h.isEmpty_right]
  exact ofBounds_subset (neg_antitone h.high) (neg_antitone h.low)

theorem Refines.neg (ha : a.Refines a') : a.neg.Refines a'.neg := by
  refine ⟨isCanonical_neg a, isCanonical_neg a', ?_⟩
  cases hempty : a.isEmpty with
  | true =>
    rw [Interval.neg, if_pos hempty]
    exact empty_subset _
  | false => exact neg_of_inside (inside_of_subset ha.left hempty ha.subset)

/-- The ends of the absolute value, whatever the sign. -/
theorem abs_eq (ha : a.IsCanonical) (hempty : a.isEmpty = false) :
    a.abs = ofBounds (max (.finite 0) (max a.low a.high.neg)) (max a.low.neg a.high) := by
  have hle : a.low ≤ a.high := low_le_high hempty
  have hneg {b : Bound} (h : .finite 0 ≤ b) : b.neg ≤ .finite 0 := neg_antitone h
  have hpos {b : Bound} (h : b ≤ .finite 0) : .finite 0 ≤ b.neg := neg_antitone h
  unfold abs
  rw [hempty]
  simp only [Bool.false_eq_true, if_false]
  split
  · next hlow =>
    have hhigh : .finite 0 ≤ a.high := hlow.trans hle
    rw [max_eq_left ((hneg hhigh).trans hlow), max_eq_right hlow,
      max_eq_right ((hneg hlow).trans hhigh)]
    exact ha.symm
  · split
    · next hhigh =>
      have hlow : a.low ≤ .finite 0 := hle.trans hhigh
      rw [max_eq_right (hlow.trans (hpos hhigh)), max_eq_right (hpos hhigh),
        max_eq_left (hhigh.trans (hpos hlow)), Interval.neg, hempty]
      rfl
    · next hlow hhigh =>
      rw [not_le] at hlow hhigh
      rw [max_eq_left (max_le hlow.le (hneg hhigh.le))]

theorem Refines.abs (ha : a.Refines a') : a.abs.Refines a'.abs := by
  refine ⟨isCanonical_abs ha.left, isCanonical_abs ha.right, ?_⟩
  cases hempty : a.isEmpty with
  | true =>
    rw [Interval.abs, if_pos hempty]
    exact empty_subset _
  | false =>
    have hA := inside_of_subset ha.left hempty ha.subset
    rw [abs_eq ha.left hempty, abs_eq ha.right hA.isEmpty_right]
    exact ofBounds_subset (max_le_max le_rfl (max_le_max hA.low (neg_antitone hA.high)))
      (max_le_max (neg_antitone hA.low) hA.high)

/-! ## Order -/

theorem Refines.minimum (ha : a.Refines a') (hb : b.Refines b') :
    (a.minimum b).Refines (a'.minimum b') := by
  refine guarded_refines ha hb (isCanonical_ofBounds _ _) (isCanonical_ofBounds _ _) fun hA hB => ?_
  exact ofBounds_subset (min_le_min hA.low hB.low) (min_le_min hA.high hB.high)

theorem Refines.maximum (ha : a.Refines a') (hb : b.Refines b') :
    (a.maximum b).Refines (a'.maximum b') := by
  refine guarded_refines ha hb (isCanonical_ofBounds _ _) (isCanonical_ofBounds _ _) fun hA hB => ?_
  exact ofBounds_subset (max_le_max hA.low hB.low) (max_le_max hA.high hB.high)

theorem Refines.clamp (ha : a.Refines a') (hb : b.Refines b') (hc : c.Refines c') :
    (a.clamp b c).Refines (a'.clamp b' c') :=
  (ha.maximum hb).minimum hc

/-! ## Hulls of corners -/

/-- The hull of the corners of a box grows with the box, for an operation that is monotone or
antitone in each operand. -/
theorem hull_corners_subset {β : Type} [Preorder β] {F : Bound → β → Bound} {u v u' v' : β}
    (hleft : ∀ y ∈ Set.Icc u' v',
      MonotoneOn (fun x => F x y) Set.univ ∨ AntitoneOn (fun x => F x y) Set.univ)
    (hright : ∀ x, MonotoneOn (F x) (Set.Icc u' v') ∨ AntitoneOn (F x) (Set.Icc u' v'))
    (ha : a.Inside a') (hu : u' ≤ u) (huv : u ≤ v) (hv : v ≤ v') :
    hull [F a.low u, F a.low v, F a.high u, F a.high v] ⊆
      hull [F a'.low u', F a'.low v', F a'.high u', F a'.high v'] := by
  -- every corner of the small box is a value inside of the large one
  have hcorner : ∀ b ∈ [F a.low u, F a.low v, F a.high u, F a.high v],
      ∃ x ∈ Set.Icc a'.low a'.high, ∃ y ∈ Set.Icc u' v', b = F x y := by
    have hlow : a.low ∈ Set.Icc a'.low a'.high := ⟨ha.low, ha.nonempty.trans ha.high⟩
    have hhigh : a.high ∈ Set.Icc a'.low a'.high := ⟨ha.low.trans ha.nonempty, ha.high⟩
    have hleast : u ∈ Set.Icc u' v' := ⟨hu, huv.trans hv⟩
    have hmost : v ∈ Set.Icc u' v' := ⟨hu.trans huv, hv⟩
    intro b hb
    simp only [List.mem_cons, List.not_mem_nil, or_false] at hb
    rcases hb with rfl | rfl | rfl | rfl
    · exact ⟨_, hlow, _, hleast, rfl⟩
    · exact ⟨_, hlow, _, hmost, rfl⟩
    · exact ⟨_, hhigh, _, hleast, rfl⟩
    · exact ⟨_, hhigh, _, hmost, rfl⟩
  refine hull_subset ?_ ?_ (List.cons_ne_nil _ _)
  · intro b hb
    obtain ⟨x, hx, y, hy, rfl⟩ := hcorner b hb
    rcases exists_corner_le hleft hright hx hy with (h | h) | (h | h) <;> exact ⟨_, by simp, h⟩
  · intro b hb
    obtain ⟨x, hx, y, hy, rfl⟩ := hcorner b hb
    rcases exists_corner_ge hleft hright hx hy with (h | h) | (h | h) <;> exact ⟨_, by simp, h⟩

/-! ## Products -/

theorem Refines.mul (ha : a.Refines a') (hb : b.Refines b') : (a.mul b).Refines (a'.mul b') := by
  refine guarded_refines ha hb (isCanonical_hull _) (isCanonical_hull _) fun hA hB => ?_
  have hword : (2 : Int) ^ 63 < 2 ^ 63 + 1 := by omega
  refine hull_corners_subset (F := Bound.mul) ?_ ?_ hA hB.low hB.nonempty hB.high
  · intro y _
    exact Bound.monotone_or_antitone_of_asInt hword (fun x _ => Bound.mul_eq_ofInt hword x y)
      (fun _ _ => Set.mem_univ _) (mul_left_monotone_or_antitone _)
  · intro x
    exact Bound.monotone_or_antitone_of_asInt hword (fun y _ => Bound.mul_eq_ofInt hword x y)
      (fun _ _ => Set.mem_univ _) (mul_right_monotone_or_antitone Set.univ _)

/-! ## Quotients -/

theorem isCanonical_div (a b : Interval) : (a.div b).IsCanonical := by
  refine isCanonical_guarded ?_
  split
  · exact isCanonical_top
  · exact isCanonical_hull _

theorem contains_of_inside {v : Int64} (h : b.Inside b') (hb : b.contains v = true) :
    b'.contains v = true :=
  contains_iff.mpr (subset_of_ends h.low h.high v.toInt (contains_iff.mp hb))

theorem Refines.div (ha : a.Refines a') (hb : b.Refines b') : (a.div b).Refines (a'.div b') := by
  refine ⟨isCanonical_div a b, isCanonical_div a' b', ?_⟩
  refine guarded_subset ha.left hb.left ha.subset hb.subset fun hA hB => ?_
  by_cases hzero : b'.contains 0 = true
  · rw [if_pos hzero]
    exact subset_top _
  · rw [if_neg hzero, if_neg fun h => hzero (contains_of_inside hB h)]
    have hword : (2 : Int) ^ 63 < 2 ^ 63 + 1 := by omega
    have h0 : 0 ∉ Set.Icc (b'.low.asInt (2 ^ 63 + 1)) (b'.high.asInt (2 ^ 63 + 1)) :=
      zero_notMem_Icc_asInt (by omega) hB.isEmpty_right (Bool.not_eq_true _ ▸ hzero)
    have hmem {y : Bound} (hy : y ∈ Set.Icc b'.low b'.high) :
        y.asInt (2 ^ 63 + 1) ∈
          Set.Icc (b'.low.asInt (2 ^ 63 + 1)) (b'.high.asInt (2 ^ 63 + 1)) :=
      ⟨Bound.asInt_mono hword hy.1, Bound.asInt_mono hword hy.2⟩
    have hne {y : Bound} (hy : y ∈ Set.Icc b'.low b'.high) : y.asInt (2 ^ 63 + 1) ≠ 0 :=
      fun he => h0 (he ▸ hmem hy)
    have hsign {y : Bound} (hy : y ∈ Set.Icc b'.low b'.high) : y.sign ≠ 0 :=
      Bound.sign_ne_zero (by omega) (hne hy)
    refine hull_corners_subset (F := Bound.div) ?_ ?_ hA hB.low hB.nonempty hB.high
    · intro y hy
      exact Bound.monotone_or_antitone_of_asInt (by omega)
        (fun x _ => Bound.div_eq_ofInt hword x (hsign hy)) (fun _ _ => Set.mem_univ _)
        (tdiv_left_monotone_or_antitone (hne hy))
    · intro x
      exact Bound.monotone_or_antitone_of_asInt hword
        (fun y hy => Bound.div_eq_ofInt hword x (hsign hy)) (fun _ hy => hmem hy)
        (tdiv_right_monotone_or_antitone h0 _)

/-! ## Shifts -/

theorem isCanonical_shiftRight (a b : Interval) : (a.shiftRight b).IsCanonical := by
  refine isCanonical_guarded ?_
  split
  · split
    · exact isCanonical_top
    · exact isCanonical_hull _
  · exact isCanonical_top

/-- Between finite bounds an interval has finite ends. -/
theorem Inside.finite {least most : Int64} (h : b.Inside b') (hlow : b'.low = .finite least)
    (hhigh : b'.high = .finite most) :
    ∃ l m : Int64, b.low = .finite l ∧ b.high = .finite m ∧ least.toInt ≤ l.toInt ∧
      l.toInt ≤ m.toInt ∧ m.toInt ≤ most.toInt := by
  obtain ⟨hle, hl, hh⟩ := h
  rw [hlow] at hl
  rw [hhigh] at hh
  cases hm : b.high with
  | negInf =>
    rw [hm] at hle
    exact (hl.trans hle).elim
  | posInf =>
    rw [hm] at hh
    exact hh.elim
  | finite m =>
    rw [hm] at hle hh
    cases hb : b.low with
    | negInf =>
      rw [hb] at hl
      exact hl.elim
    | posInf =>
      rw [hb] at hle
      exact hle.elim
    | finite l =>
      rw [hb] at hle hl
      exact ⟨l, m, rfl, rfl, hl, hle, hh⟩

theorem Refines.shiftRight (ha : a.Refines a') (hb : b.Refines b') :
    (a.shiftRight b).Refines (a'.shiftRight b') := by
  refine ⟨isCanonical_shiftRight a b, isCanonical_shiftRight a' b', ?_⟩
  refine guarded_subset ha.left hb.left ha.subset hb.subset fun hA hB => ?_
  cases hlow' : b'.low with
  | finite least' =>
    cases hhigh' : b'.high with
    | finite most' =>
      obtain ⟨least, most, hlow, hhigh, hl, hlm, hm⟩ := hB.finite hlow' hhigh'
      rw [hlow, hhigh]
      simp only
      by_cases hout : least'.toInt < 0 ∨ 63 < most'.toInt
      · rw [if_pos hout]
        exact subset_top _
      · rw [if_neg hout, if_neg (by omega)]
        refine hull_corners_subset (F := fun x n => x.shiftRight n) ?_ ?_ hA (by omega) (by omega)
          (by omega)
        · intro n _
          exact Or.inl fun _ _ _ _ hle => Bound.shiftRight_mono n hle
        · intro x
          exact Bound.shiftRight_monotone_or_antitone x _
    | _ => exact subset_top _
  | _ => exact subset_top _

/-! ## Remainders -/

theorem isCanonical_remainderWithin (m : Bound) : (remainderWithin m).IsCanonical := by
  unfold remainderWithin
  split
  · split
    · exact isCanonical_ofBounds _ _
    · exact isCanonical_top
  · exact isCanonical_top

theorem isCanonical_rem (a b : Interval) : (a.rem b).IsCanonical := by
  refine isCanonical_guarded ?_
  split
  · split
    · exact isCanonical_ofBounds _ _
    · split
      · exact isCanonical_top
      · exact isCanonical_remainderWithin _
  · exact isCanonical_remainderWithin _

/-- Some divisor is not zero. -/
theorem one_le_magnitude (hle : b.low ≤ b.high) (h0 : b ≠ constant 0) :
    .finite 1 ≤ max b.low.neg b.high := by
  rw [le_max_iff, or_iff_not_imp_right, not_le]
  intro hhigh
  obtain ⟨low, high⟩ := b
  cases high with
  | posInf => exact absurd (Bound.le_posInf _) (not_le.mpr hhigh)
  | negInf =>
    cases low with
    | negInf => exact Bound.le_posInf _
    | _ => exact hle.elim
  | finite w =>
    have hw : w.toInt < 1 := Int.not_le.mp hhigh
    cases low with
    | posInf => exact hle.elim
    | negInf => exact Bound.le_posInf _
    | finite v =>
      have hvw : v.toInt ≤ w.toInt := hle
      have hv : v.toInt ≠ 0 := by
        intro hv
        have hw0 : w.toInt = 0 := by omega
        obtain rfl : v = 0 := Int64.toInt_inj.mp hv
        obtain rfl : w = 0 := Int64.toInt_inj.mp hw0
        exact h0 rfl
      exact ofInt_mono (by omega : (1 : Int) ≤ -v.toInt)

theorem remainderWithin_subset {m m' : Bound} (h1 : .finite 1 ≤ m) (h : m ≤ m') :
    remainderWithin m ⊆ remainderWithin m' := by
  cases m' with
  | finite k' =>
    cases m with
    | negInf => exact h1.elim
    | posInf => exact h.elim
    | finite k =>
      have hk : 1 ≤ k.toInt := h1
      have hkk : k.toInt ≤ k'.toInt := h
      simp only [remainderWithin]
      rw [if_pos (by omega), if_pos (by omega)]
      exact ofBounds_subset (ofInt_mono (by omega)) (ofInt_mono (by omega))
  | _ => exact subset_top _

/-- A positive constant bounds the remainder below by zero as well. -/
theorem positive_remainder_subset {m : Int64} {m' : Bound} (hm : 0 < m.toInt) (h : .finite m ≤ m') :
    ofBounds (.finite 0) (Bound.ofInt (m.toInt - 1)) ⊆ remainderWithin m' := by
  refine subset_trans ?_ (remainderWithin_subset (m := .finite m) hm h)
  simp only [remainderWithin]
  rw [if_pos hm]
  exact ofBounds_subset (ofInt_mono (by omega : (1 : Int) - m.toInt ≤ 0)) le_rfl

theorem Refines.rem (ha : a.Refines a') (hb : b.Refines b') (h0 : b ≠ constant 0) :
    (a.rem b).Refines (a'.rem b') := by
  refine ⟨isCanonical_rem a b, isCanonical_rem a' b', ?_⟩
  refine guarded_subset ha.left hb.left ha.subset hb.subset fun _ hB => ?_
  cases hm' : b'.constant? with
  | some m' =>
    -- a divisor within a constant is that constant
    obtain rfl := constant?_eq_some.mp hm'
    have hlow : b.low = .finite m' := (hB.nonempty.trans hB.high).antisymm hB.low
    have hhigh : b.high = .finite m' := hB.high.antisymm (hB.low.trans hB.nonempty)
    have hconstant : b = constant m' := by
      obtain ⟨l, h⟩ := b
      obtain rfl : l = .finite m' := hlow
      obtain rfl : h = .finite m' := hhigh
      rfl
    rw [hconstant, hm']
    exact subset_refl _
  | none =>
    have hwithin : remainderWithin (max b.low.neg b.high) ⊆
        remainderWithin (max b'.low.neg b'.high) :=
      remainderWithin_subset (one_le_magnitude hB.nonempty h0)
        (max_le_max (neg_antitone hB.low) hB.high)
    cases hm : b.constant? with
    | none => exact hwithin
    | some m =>
      have hconstant := constant?_eq_some.mp hm
      simp only
      split
      · next hpos =>
        refine positive_remainder_subset hpos (le_trans ?_ (le_max_right _ _))
        rw [hconstant] at hB
        exact hB.high
      · split
        · next hzero =>
          obtain rfl : m = 0 := Int64.toInt_inj.mp hzero
          exact absurd hconstant h0
        · exact hwithin

/-! ## Bit masks -/

theorem isCanonical_bitAnd (a b : Interval) : (a.bitAnd b).IsCanonical := by
  refine isCanonical_guarded ?_
  split
  · exact isCanonical_ofBounds _ _
  · exact isCanonical_ofBounds _ _
  · exact isCanonical_ofBounds _ _
  · exact isCanonical_top

/-- A mask within a mask is at most as large. -/
theorem Inside.mask? {m' : Int64} (h : a.Inside a') (hm' : a'.mask? = some m') :
    ∃ m : Int64, a.mask? = some m ∧ Bound.finite m ≤ .finite m' := by
  obtain ⟨hlow', hhigh'⟩ := ends_of_mask? hm'
  have hlow : .finite 0 ≤ a.low := hlow'.trans h.low
  have hhigh : a.high ≤ .finite m' := hhigh' ▸ h.high
  unfold Interval.mask? isNonNegative
  rw [h.isEmpty_left, decide_eq_true hlow]
  cases hb : a.high with
  | negInf =>
    have hle : .finite 0 ≤ a.high := hlow.trans h.nonempty
    rw [hb] at hle
    exact hle.elim
  | finite m => exact ⟨m, rfl, hb ▸ hhigh⟩
  | posInf =>
    rw [hb] at hhigh
    exact hhigh.elim

theorem Refines.bitAnd (ha : a.Refines a') (hb : b.Refines b') :
    (a.bitAnd b).Refines (a'.bitAnd b') := by
  refine ⟨isCanonical_bitAnd a b, isCanonical_bitAnd a' b', ?_⟩
  refine guarded_subset ha.left hb.left ha.subset hb.subset fun hA hB => ?_
  cases hm' : a'.mask? with
  | none =>
    cases hn' : b'.mask? with
    | none => exact subset_top _
    | some n' =>
      obtain ⟨n, hn, hle⟩ := hB.mask? hn'
      rw [hn]
      cases a.mask? with
      | none => exact ofBounds_subset le_rfl hle
      | some m => exact ofBounds_subset le_rfl ((min_le_right _ _).trans hle)
  | some m' =>
    obtain ⟨m, hm, hle⟩ := hA.mask? hm'
    rw [hm]
    cases hn' : b'.mask? with
    | none =>
      cases b.mask? with
      | none => exact ofBounds_subset le_rfl hle
      | some n => exact ofBounds_subset le_rfl ((min_le_left _ _).trans hle)
    | some n' =>
      obtain ⟨n, hn, hle'⟩ := hB.mask? hn'
      rw [hn]
      exact ofBounds_subset le_rfl (min_le_min hle hle')

/-! ## Several operands -/

theorem refines_foldl {F : Interval → Interval → Interval}
    (hF : ∀ {a a' b b' : Interval}, a.Refines a' → b.Refines b' → (F a b).Refines (F a' b'))
    {ivs ivs' : List Interval} (h : List.Forall₂ Refines ivs ivs') (ha : a.Refines a') :
    (ivs.foldl F a).Refines (ivs'.foldl F a') := by
  induction h generalizing a a' with
  | nil => exact ha
  | cons hb _ ih => exact ih (hF ha hb)

end Interval

end FlowSafety
