import FlowSafety.Proofs.Interval.Lattice
import FlowSafety.Proofs.Text.Numerals

/-!
# Guards on integers are exact

A comparison that passed leaves the integers for which it holds, one that failed those for which it
does not. Both are half-lines or single integers, so the intersection with them is exact; only the
integers other than a bound form no interval, and there the value stays as it was. An allow list
leaves the hull of the integers whose numerals are on it.

* `Comparison.isCanonical_admitted` — a comparison admits a canonical interval
* `Interval.mem_refined_iff` — the integers that a comparison leaves
* `Branch.refine_integer_exact` — no integer that follows a branch is lost, and where an interval can
  say so none is left that does not follow it
-/

namespace FlowSafety

open FlowSafety.Interval (isCanonical_empty isCanonical_constant isCanonical_ofBounds)

/-! ## Comparisons -/

theorem Comparison.isCanonical_admitted {c : Comparison} {bound : Int64} {iv : Interval}
    (h : c.admitted? bound = some iv) : iv.IsCanonical := by
  cases c with
  | lt =>
    obtain rfl := Option.some.inj h
    split
    · exact isCanonical_empty
    · exact isCanonical_ofBounds _ _
  | le =>
    obtain rfl := Option.some.inj h
    exact isCanonical_ofBounds _ _
  | gt =>
    obtain rfl := Option.some.inj h
    split
    · exact isCanonical_empty
    · exact isCanonical_ofBounds _ _
  | ge =>
    obtain rfl := Option.some.inj h
    exact isCanonical_ofBounds _ _
  | eq =>
    obtain rfl := Option.some.inj h
    exact isCanonical_constant bound
  | ne => contradiction

theorem Comparison.exists_admitted {c : Comparison} (hc : c ≠ .ne) (bound : Int64) :
    ∃ iv, c.admitted? bound = some iv := by
  cases c with
  | ne => exact absurd rfl hc
  | _ => exact ⟨_, rfl⟩

theorem Comparison.negate_ne {c : Comparison} (hc : c ≠ .eq) : c.negate ≠ .ne := by
  cases c with
  | eq => exact absurd rfl hc
  | _ => exact Comparison.noConfusion

/-- The integers that a comparison leaves. -/
theorem Interval.mem_refined_iff {iv : Interval} {c : Comparison} {bound n : Int64}
    (hiv : iv.IsUnsaturated) (hc : c ≠ .ne) :
    n.toInt ∈ (iv.refined c bound).1 ↔ n.toInt ∈ iv ∧ c.Holds n.toInt bound.toInt := by
  obtain ⟨admitted, hadmitted⟩ := Comparison.exists_admitted hc bound
  have hcanonical := Comparison.isCanonical_admitted hadmitted
  rw [← Comparison.mem_admitted_iff hadmitted, ← mem_meet_iff hiv hcanonical.isUnsaturated]
  simp only [refined, hadmitted]

/-! ## Branches -/

/-- On the branch an interval becomes the other one. -/
def Branch.Narrows (b : Branch) (iv iv' : Interval) : Prop :=
  ∃ why, b.refine (.integer iv) = .ok (.integer iv', why)

/-- A guard on an integer always goes through. No 64-bit integer that follows the branch is lost: one
for which the comparison holds where it passed, one for which it does not where it failed, one whose
numeral is on the list. All others are ruled out, but for the branch where a single integer is
excluded. -/
theorem Branch.refine_integer_exact (parent : Option Nat) {iv : Interval}
    (hiv : iv.IsUnsaturated) :
    (∀ (c : Comparison) (bound : Int64), ∃ passed failed : Interval,
      (Branch.mk parent (.compare c bound) .passed).Narrows iv passed ∧
        (Branch.mk parent (.compare c bound) .failed).Narrows iv failed ∧
        (∀ n : Int64, n.toInt ∈ iv →
          (c.Holds n.toInt bound.toInt → n.toInt ∈ passed) ∧
            (¬ c.Holds n.toInt bound.toInt → n.toInt ∈ failed)) ∧
        (c ≠ .ne → ∀ n : Int64,
          n.toInt ∈ passed ↔ n.toInt ∈ iv ∧ c.Holds n.toInt bound.toInt) ∧
        (c ≠ .eq → ∀ n : Int64,
          n.toInt ∈ failed ↔ n.toInt ∈ iv ∧ ¬ c.Holds n.toInt bound.toInt)) ∧
      ∀ values : TextSet, ∃ listed : Interval,
        (Branch.mk parent (.inAllowList values) .passed).Narrows iv listed ∧
          ∀ n : Int64, n.toInt ∈ iv → toString n.toInt ∈ values → n.toInt ∈ listed := by
  refine ⟨fun c bound => ?_, fun values => ?_⟩
  · refine ⟨(iv.refined c bound).1, (iv.refined c.negate bound).1, ⟨_, rfl⟩, ⟨_, rfl⟩, ?_, ?_, ?_⟩
    · intro n hn
      exact ⟨Interval.mem_refined hn,
        fun h => Interval.mem_refined hn ((Comparison.holds_negate _ _).mpr h)⟩
    · intro hc n
      exact Interval.mem_refined_iff hiv hc
    · -- the branch that failed is refined by the negated comparison
      intro hc n
      rw [Interval.mem_refined_iff hiv (Comparison.negate_ne hc), Comparison.holds_negate]
  · refine ⟨iv.within values, ⟨_, rfl⟩, fun n hn hlisted => ?_⟩
    exact Interval.mem_within hn ⟨toString n.toInt, hlisted, Text.int64?_toString n⟩

/-- The failed branch of a comparison that every 64-bit integer passes, and an allow list. -/
theorem Branch.refine_integer_atMostTen :
    (Interval.atMost 10).IsUnsaturated ∧
      (∃ failed : Interval,
        (Branch.mk none (.compare .ge Int64.minValue) .failed).Narrows (.atMost 10) failed ∧
          ∀ n : Int64, n.toInt ∉ failed) ∧
      ∃ listed : Interval,
        (Branch.mk none (.inAllowList (.ofList ["-7", "x"])) .passed).Narrows (.atMost 10) listed ∧
          (-7 : Int) ∈ listed := by
  have hiv : (Interval.atMost 10).IsUnsaturated := Or.inr ⟨by decide, by decide⟩
  obtain ⟨hcompare, hlist⟩ := Branch.refine_integer_exact none hiv
  obtain ⟨-, failed, -, hfailed, -, -, hexact⟩ := hcompare .ge Int64.minValue
  obtain ⟨listed, hnarrows, hlisted⟩ := hlist (.ofList ["-7", "x"])
  refine ⟨hiv, ⟨failed, hfailed, fun n hn => ?_⟩, listed, hnarrows, ?_⟩
  · exact ((hexact (by decide) n).mp hn).2 n.minValue_le_toInt
  · exact hlisted (-7) (by decide) (TextSet.mem_ofList.mpr (by decide))

end FlowSafety
