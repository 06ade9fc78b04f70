import FlowSafety.Proofs.Numeric.Operators

/-!
# Guards on concrete integers

Which integers follow a branch, and that the refined value still holds them.

* `Comparison.mem_admitted_iff` — the interval that a comparison admits holds the integers that it
  holds for
* `Branch.refine_sound` — the value on a branch holds every integer that follows the branch
-/

namespace FlowSafety

/-- The integer follows the branch: it satisfies the comparison exactly if the path passed it, and
on the passed branch of an allow list it is written there. -/
def Branch.Admits (b : Branch) (n : Int64) : Prop :=
  match b.condition, b.outcome with
  | .compare c bound, .passed => c.Holds n.toInt bound.toInt
  | .compare c bound, .failed => ¬ c.Holds n.toInt bound.toInt
  | .inAllowList values, .passed => ∃ t ∈ values, Text.int64? t = some n
  | .inAllowList values, .failed => toString n.toInt ∉ values
  | .matchesPattern _ _, _ => False

namespace Comparison

variable {c : Comparison} {bound : Int64} {iv : Interval} {z : Int}

theorem holds_negate (a b : Int) : c.negate.Holds a b ↔ ¬ c.Holds a b := by
  cases c with
  | lt => exact Int.not_lt.symm
  | le => exact Int.not_le.symm
  | gt => exact Int.not_lt.symm
  | ge => exact Int.not_le.symm
  | eq => exact Iff.rfl
  | ne => exact (Decidable.not_not (p := a = b)).symm

theorem toInt_pred (h : bound ≠ Int64.minValue) : (bound - 1).toInt = bound.toInt - 1 := by
  have hmin : bound.toInt ≠ Int64.minValue.toInt := fun he => h (Int64.toInt_inj.mp he)
  have hlow := bound.minValue_le_toInt
  have hlt := bound.toInt_lt
  rw [Int64.toInt_minValue] at hmin hlow
  rw [Int64.toInt_sub, show (1 : Int64).toInt = 1 from rfl]
  exact Int.bmod_eq_of_le (by omega) (by omega)

theorem toInt_succ (h : bound ≠ Int64.maxValue) : (bound + 1).toInt = bound.toInt + 1 := by
  have hmax : bound.toInt ≠ Int64.maxValue.toInt := fun he => h (Int64.toInt_inj.mp he)
  have hlow := bound.le_toInt
  have hle := bound.toInt_le
  rw [Int64.toInt_maxValue] at hmax hle
  rw [Int64.toInt_add, show (1 : Int64).toInt = 1 from rfl]
  exact Int.bmod_eq_of_le (by omega) (by omega)

/-- The interval of a comparison holds the 64-bit integers for which the comparison holds. -/
theorem mem_admitted_iff {n : Int64} (h : c.admitted? bound = some iv) :
    n.toInt ∈ iv ↔ c.Holds n.toInt bound.toInt := by
  cases c with
  | lt =>
    obtain rfl := Option.some.inj h
    show _ ↔ n.toInt < bound.toInt
    split
    · next he =>
      have hlow := n.minValue_le_toInt
      rw [he]
      exact ⟨fun hn => absurd hn Interval.not_mem_empty, fun hlt => by omega⟩
    · next hne =>
      rw [Interval.mem_atMost, toInt_pred hne]
      omega
  | le =>
    obtain rfl := Option.some.inj h
    exact Interval.mem_atMost
  | gt =>
    obtain rfl := Option.some.inj h
    show _ ↔ bound.toInt < n.toInt
    split
    · next he =>
      have hhigh := n.toInt_le
      rw [he]
      exact ⟨fun hn => absurd hn Interval.not_mem_empty, fun hlt => by omega⟩
    · next hne =>
      rw [Interval.mem_atLeast, toInt_succ hne]
      omega
  | ge =>
    obtain rfl := Option.some.inj h
    exact Interval.mem_atLeast
  | eq =>
    obtain rfl := Option.some.inj h
    exact Interval.mem_constant
  | ne => contradiction

end Comparison

namespace Interval

variable {iv : Interval} {n : Int64}

theorem mem_refined {c : Comparison} {bound : Int64} (hn : n.toInt ∈ iv)
    (hc : c.Holds n.toInt bound.toInt) : n.toInt ∈ (iv.refined c bound).1 := by
  unfold refined
  split
  · next hadmitted => exact mem_meet hn ((Comparison.mem_admitted_iff hadmitted).mpr hc)
  · exact hn

theorem mem_within {values : TextSet} (hn : n.toInt ∈ iv)
    (hv : ∃ t ∈ values, Text.int64? t = some n) : n.toInt ∈ iv.within values := by
  obtain ⟨t, ht, hread⟩ := hv
  have hmem : n ∈ values.toList.filterMap Text.int64? := List.mem_filterMap.mpr ⟨t, ht, hread⟩
  unfold within
  split
  · next hull hhull => exact mem_meet hn (TextGuarantee.mem_hullOf hhull hmem)
  · next hnone =>
    cases hvs : values.toList.filterMap Text.int64? with
    | nil =>
      rw [hvs] at hmem
      simp at hmem
    | cons v vs =>
      rw [hvs] at hnone
      contradiction

end Interval

/-- The value on a branch holds every integer that follows it. -/
theorem Branch.refine_sound {b : Branch} {n : Int64} {v v' : Value} {why : String}
    (h : b.refine v = .ok (v', why)) (hv : v.HoldsInteger n) (hn : b.Admits n) :
    v'.HoldsInteger n := by
  cases v with
  | text g => exact hv.elim
  | integer iv =>
    obtain ⟨iv', rfl, hrefined⟩ := Branch.refine_integer_eq_ok h
    unfold Branch.Admits at hn
    cases hrefined with
    | compared hcondition =>
      rw [hcondition] at hn
      cases houtcome : b.outcome with
      | passed =>
        rw [houtcome] at hn
        exact Interval.mem_refined hv hn
      | failed =>
        rw [houtcome] at hn
        exact Interval.mem_refined hv ((Comparison.holds_negate _ _).mpr hn)
    | listed hpassed hcondition =>
      rw [hcondition, hpassed] at hn
      exact Interval.mem_within hv hn
    | unlisted _ _ => exact hv

end FlowSafety
