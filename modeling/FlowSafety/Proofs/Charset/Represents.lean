import FlowSafety.Proofs.Charset.CharClass
import Mathlib.Data.Set.Insert
import Mathlib.Order.BooleanAlgebra.Set

/-!
# Sets that a class stands for

A class does not stand for one set of characters: its bits are exact, but of the characters beyond
ASCII the level `some` leaves open which are in the set. The sets that it may stand for are those
between `CharClass.must` and `CharClass.may`, and every operation works on these two ends. A
difference takes the upper end of the second class from the lower end of the first and the lower end
from the upper one, which is why `some` without `some` is still `some`.

* `represents_iff` — a class stands for the sets between its ends
* `may_diff`, `must_diff` and the like — the ends of what an operation returns
* `Represents.union`, `Represents.diff` and the like — operations on classes follow those on sets
* `isSubsetOf_iff_forall` and the like — a test says what is true of all sets at once
* `Represents.eq_may` — without `some`, a class stands for one set
* `operations_represent` — the operations and the tests together
-/

namespace FlowSafety

namespace NonAscii

variable {x y : NonAscii}

theorem union_eq_all : x.union y = .all ↔ x = .all ∨ y = .all := by
  cases x <;> cases y <;> decide

theorem inter_eq_all : x.inter y = .all ↔ x = .all ∧ y = .all := by
  cases x <;> cases y <;> decide

theorem diff_eq_all : x.diff y = .all ↔ x = .all ∧ y = .none := by
  cases x <;> cases y <;> decide

theorem diff_eq_none : x.diff y = .none ↔ x = .none ∨ y = .all := by
  cases x <;> cases y <;> decide

end NonAscii

namespace CharClass

variable {a b k : CharClass} {s t : Set Char} {c d : Char}

/-- The class stands for the set: the bits are its ASCII members, and the summary is not wrong about
the others. -/
structure Represents (k : CharClass) (s : Set Char) : Prop where
  bits : ∀ c : Char, c.toNat < 128 → (k.ascii.getLsbD c.toNat = true ↔ c ∈ s)
  ascii_of_none : k.nonAscii = .none → ∀ c ∈ s, c.toNat < 128
  mem_of_all : k.nonAscii = .all → ∀ c : Char, ¬ c.toNat < 128 → c ∈ s

/-- The characters in some set that the class stands for. -/
def may (k : CharClass) : Set Char := {c | k.contains c = true}

/-- The characters in every set that the class stands for. -/
def must (k : CharClass) : Set Char :=
  {c | k.contains c = true ∧ (c.toNat < 128 ∨ k.nonAscii = .all)}

theorem mem_may : c ∈ k.may ↔ k.contains c = true := Iff.rfl

theorem mem_must_ascii (hc : c.toNat < 128) : c ∈ k.must ↔ k.contains c = true :=
  and_iff_left (.inl hc)

theorem mem_may_wide (hc : ¬ c.toNat < 128) : c ∈ k.may ↔ k.nonAscii ≠ .none := by
  rw [mem_may, contains_wide hc, decide_eq_true_iff]

theorem mem_must_wide (hc : ¬ c.toNat < 128) : c ∈ k.must ↔ k.nonAscii = .all := by
  constructor
  · intro h
    exact h.2.resolve_left hc
  · intro hall
    refine ⟨(mem_may_wide hc).mpr ?_, .inr hall⟩
    rw [hall]
    decide

theorem must_subset_may (k : CharClass) : k.must ⊆ k.may := fun _ h => h.1

/-- A class stands for the sets between its ends. -/
theorem represents_iff : k.Represents s ↔ k.must ⊆ s ∧ s ⊆ k.may := by
  constructor
  · intro h
    constructor
    · intro c hc
      by_cases hlt : c.toNat < 128
      · rw [mem_must_ascii hlt, contains_ascii hlt] at hc
        exact (h.bits c hlt).mp hc
      · exact h.mem_of_all ((mem_must_wide hlt).mp hc) c hlt
    · intro c hc
      by_cases hlt : c.toNat < 128
      · rw [mem_may, contains_ascii hlt]
        exact (h.bits c hlt).mpr hc
      · rw [mem_may_wide hlt]
        intro hnone
        exact hlt (h.ascii_of_none hnone c hc)
  · rintro ⟨hmust, hmay⟩
    constructor
    · intro c hlt
      rw [← contains_ascii hlt]
      -- on ASCII the two ends agree, so a set between them has the bits as its members
      exact ⟨fun hc => hmust ((mem_must_ascii hlt).mpr hc), fun hc => hmay hc⟩
    · intro hnone c hc
      by_contra hwide
      exact (mem_may_wide hwide).mp (hmay hc) hnone
    · intro hall c hwide
      exact hmust ((mem_must_wide hwide).mpr hall)

theorem represents_may (k : CharClass) : k.Represents k.may :=
  represents_iff.mpr ⟨k.must_subset_may, Set.Subset.rfl⟩

theorem represents_must (k : CharClass) : k.Represents k.must :=
  represents_iff.mpr ⟨Set.Subset.rfl, k.must_subset_may⟩

/-! ## Operations -/

theorem may_union : (a.union b).may = a.may ∪ b.may := by
  ext c
  simp [mem_may, contains_union]

theorem must_union : (a.union b).must = a.must ∪ b.must := by
  ext c
  rw [Set.mem_union]
  by_cases hc : c.toNat < 128
  · rw [mem_must_ascii hc, mem_must_ascii hc, mem_must_ascii hc, contains_union, Bool.or_eq_true]
  · rw [mem_must_wide hc, mem_must_wide hc, mem_must_wide hc]
    exact NonAscii.union_eq_all

theorem may_inter : (a.inter b).may = a.may ∩ b.may := by
  ext c
  simp [mem_may, contains_inter]

theorem must_inter : (a.inter b).must = a.must ∩ b.must := by
  ext c
  rw [Set.mem_inter_iff]
  by_cases hc : c.toNat < 128
  · rw [mem_must_ascii hc, mem_must_ascii hc, mem_must_ascii hc, contains_inter, Bool.and_eq_true]
  · rw [mem_must_wide hc, mem_must_wide hc, mem_must_wide hc]
    exact NonAscii.inter_eq_all

/-- On ASCII a difference is exact. -/
theorem contains_diff_ascii (hc : c.toNat < 128) :
    (a.diff b).contains c = true ↔ a.contains c = true ∧ ¬ b.contains c = true := by
  rw [contains_ascii hc, contains_ascii hc, contains_ascii hc, diff, BitVec.getLsbD_and,
    BitVec.getLsbD_not, decide_eq_true hc, Bool.true_and, Bool.and_eq_true, Bool.not_eq_true']
  exact and_congr_right fun _ => Bool.not_eq_true _ ▸ Iff.rfl

theorem may_diff : (a.diff b).may = a.may \ b.must := by
  ext c
  rw [Set.mem_sdiff]
  by_cases hc : c.toNat < 128
  · rw [mem_may, mem_may, mem_must_ascii hc, contains_diff_ascii hc]
  · rw [mem_may_wide hc, mem_may_wide hc, mem_must_wide hc, ← not_or]
    exact not_congr NonAscii.diff_eq_none

theorem must_diff : (a.diff b).must = a.must \ b.may := by
  ext c
  rw [Set.mem_sdiff]
  -- what is left for certain is what the second class cannot hold, so `some` leaves nothing
  by_cases hc : c.toNat < 128
  · rw [mem_must_ascii hc, mem_must_ascii hc, mem_may, contains_diff_ascii hc]
  · rw [mem_must_wide hc, mem_must_wide hc, mem_may_wide hc, not_not]
    exact NonAscii.diff_eq_all

namespace Represents

theorem must_subset (h : k.Represents s) : k.must ⊆ s := (represents_iff.mp h).1

theorem subset_may (h : k.Represents s) : s ⊆ k.may := (represents_iff.mp h).2

theorem union (ha : a.Represents s) (hb : b.Represents t) : (a.union b).Represents (s ∪ t) := by
  rw [represents_iff, must_union, may_union]
  exact ⟨Set.union_subset_union ha.must_subset hb.must_subset,
    Set.union_subset_union ha.subset_may hb.subset_may⟩

theorem inter (ha : a.Represents s) (hb : b.Represents t) : (a.inter b).Represents (s ∩ t) := by
  rw [represents_iff, must_inter, may_inter]
  exact ⟨Set.inter_subset_inter ha.must_subset hb.must_subset,
    Set.inter_subset_inter ha.subset_may hb.subset_may⟩

theorem diff (ha : a.Represents s) (hb : b.Represents t) : (a.diff b).Represents (s \ t) := by
  rw [represents_iff, must_diff, may_diff]
  exact ⟨Set.sdiff_subset_sdiff ha.must_subset hb.subset_may,
    Set.sdiff_subset_sdiff ha.subset_may hb.must_subset⟩

end Represents

theorem represents_any : any.Represents Set.univ where
  bits c hc := by
    rw [← contains_ascii hc]
    exact iff_of_true (contains_any c) (Set.mem_univ c)
  ascii_of_none := nofun
  mem_of_all _ c _ := Set.mem_univ c

theorem represents_empty : empty.Represents ∅ where
  bits c hc := by
    rw [← contains_ascii hc, not_contains_of_isEmpty (by decide)]
    exact iff_of_false Bool.false_ne_true (Set.notMem_empty c)
  ascii_of_none _ c hc := (Set.notMem_empty c hc).elim
  mem_of_all := nofun

theorem Represents.compl (h : k.Represents s) : k.compl.Represents sᶜ := by
  rw [Set.compl_eq_univ_sdiff]
  exact represents_any.diff h

theorem nonAscii_insert (k : CharClass) (c : Char) :
    (k.insert c).nonAscii = if c.toNat < 128 then k.nonAscii else k.nonAscii.union .some := by
  unfold CharClass.insert
  split <;> rfl

/-- A character beyond ASCII leaves the summary `all` as it is and raises `none` to `some`. -/
theorem Represents.insert (h : k.Represents s) (c : Char) :
    (k.insert c).Represents (Insert.insert c s) where
  bits d hd := by
    rw [← contains_ascii hd, contains_insert, contains_ascii hd, h.bits d hd, Set.mem_insert_iff]
    tauto
  ascii_of_none hnone d hd := by
    rw [nonAscii_insert] at hnone
    split at hnone
    · next hc => exact hd.elim (fun hd => hd ▸ hc) (h.ascii_of_none hnone d)
    · cases hk : k.nonAscii <;> rw [hk] at hnone <;> contradiction
  mem_of_all hall d hd := by
    rw [nonAscii_insert] at hall
    split at hall
    · exact .inr (h.mem_of_all hall d hd)
    · have hk : k.nonAscii = .all := (NonAscii.union_eq_all.mp hall).resolve_right (by decide)
      exact .inr (h.mem_of_all hk d hd)

theorem Represents.foldl_insert (h : k.Represents s) (cs : List Char) :
    (cs.foldl CharClass.insert k).Represents (s ∪ {c | c ∈ cs}) := by
  induction cs generalizing k s with
  | nil =>
    rw [show {c | c ∈ ([] : List Char)} = ∅ from Set.eq_empty_of_forall_notMem fun _ => nofun,
      Set.union_empty]
    exact h
  | cons c cs ih =>
    have hset : Insert.insert c s ∪ {d | d ∈ cs} = s ∪ {d | d ∈ c :: cs} := by
      ext d
      simp only [Set.mem_union, Set.mem_insert_iff, Set.mem_ofPred_eq, List.mem_cons]
      tauto
    rw [← hset]
    exact ih (h.insert c)

theorem represents_ofText (t : String) : (ofText t).Represents {c | c ∈ t.toList} := by
  have hfold := represents_empty.foldl_insert t.toList
  rw [Set.empty_union] at hfold
  exact hfold

/-! ## Tests -/

theorem isEmpty_iff_may : k.isEmpty = true ↔ k.may = ∅ := by
  rw [isEmpty_iff, Set.eq_empty_iff_forall_notMem]
  exact forall_congr' fun c => Bool.eq_false_iff

/-- A class is tested for inclusion by its upper and the other one's lower end. -/
theorem isSubsetOf_iff_ends : a.isSubsetOf b = true ↔ a.may ⊆ b.must := by
  rw [isSubsetOf, isEmpty_iff_may, may_diff, Set.sdiff_eq_empty]

theorem intersects_eq_false_iff_ends : a.intersects b = false ↔ a.may ∩ b.may = ∅ := by
  rw [intersects, Bool.not_eq_false', isEmpty_iff_may, may_inter]

/-- A class contains the characters that are in some set that it stands for. -/
theorem contains_iff_exists : k.contains c = true ↔ ∃ s, k.Represents s ∧ c ∈ s :=
  ⟨fun h => ⟨k.may, k.represents_may, h⟩, fun ⟨_, hs, hc⟩ => hs.subset_may hc⟩

/-- A class is empty if it stands for nothing but the empty set. -/
theorem isEmpty_iff_forall : k.isEmpty = true ↔ ∀ s, k.Represents s → s = ∅ := by
  rw [isEmpty_iff_may]
  constructor
  · intro h s hs
    exact Set.subset_eq_empty hs.subset_may h
  · intro h
    exact h k.may k.represents_may

/-- The test for inclusion says whether all sets that the first class stands for are included in all
that the second one stands for. -/
theorem isSubsetOf_iff_forall :
    a.isSubsetOf b = true ↔ ∀ s t, a.Represents s → b.Represents t → s ⊆ t := by
  rw [isSubsetOf_iff_ends]
  constructor
  · intro h s t hs ht
    exact hs.subset_may.trans (h.trans ht.must_subset)
  · -- the largest set of the first class against the smallest one of the second
    intro h
    exact h a.may b.must a.represents_may b.represents_must

/-- Two classes do not intersect if no sets that they stand for have a common member. -/
theorem intersects_eq_false_iff_forall :
    a.intersects b = false ↔ ∀ s t, a.Represents s → b.Represents t → s ∩ t = ∅ := by
  rw [intersects_eq_false_iff_ends]
  constructor
  · intro h s t hs ht
    exact Set.subset_eq_empty (Set.inter_subset_inter hs.subset_may ht.subset_may) h
  · intro h
    exact h a.may b.may a.represents_may b.represents_may

theorem may_eq_must (hk : k.nonAscii ≠ .some) : k.may = k.must := by
  ext c
  by_cases hc : c.toNat < 128
  · exact (mem_must_ascii hc).symm
  · rw [mem_may_wide hc, mem_must_wide hc]
    cases h : k.nonAscii <;> simp_all

/-- Without the level `some`, a class stands for one set only. -/
theorem Represents.eq_may (h : k.Represents s) (hk : k.nonAscii ≠ .some) : s = k.may :=
  Set.Subset.antisymm h.subset_may (may_eq_must hk ▸ h.must_subset)

end CharClass

/-- What an operation returns stands for the set that the operation on sets returns. A class
contains every member of the set, an inclusion or a lack of common members that is found is there,
and without the level `some` the tests find exactly what is true of the sets. -/
theorem operations_represent {a b : CharClass} {s t : Set Char} (ha : a.Represents s)
    (hb : b.Represents t) (c : Char) (text : String) :
    ((a.insert c).Represents (insert c s) ∧
      (CharClass.ofText text).Represents {d | d ∈ text.toList} ∧
      (a.union b).Represents (s ∪ t) ∧ (a.inter b).Represents (s ∩ t) ∧
      (a.diff b).Represents (s \ t) ∧ a.compl.Represents sᶜ) ∧
    ((c ∈ s → a.contains c = true) ∧ (a.isSubsetOf b = true → s ⊆ t) ∧
      (a.intersects b = false → s ∩ t = ∅) ∧ (a.isEmpty = true → s = ∅)) ∧
    (a.nonAscii ≠ .some →
      (a.contains c = true ↔ c ∈ s) ∧ (a.isEmpty = true ↔ s = ∅) ∧
      (b.nonAscii ≠ .some →
        (a.isSubsetOf b = true ↔ s ⊆ t) ∧ (a.intersects b = false ↔ s ∩ t = ∅))) := by
  refine ⟨?operations, ?sound, ?exact⟩
  case operations =>
    exact ⟨ha.insert c, CharClass.represents_ofText text, ha.union hb, ha.inter hb, ha.diff hb,
      ha.compl⟩
  case sound =>
    exact ⟨fun hc => CharClass.contains_iff_exists.mpr ⟨s, ha, hc⟩,
      fun h => CharClass.isSubsetOf_iff_forall.mp h s t ha hb,
      fun h => CharClass.intersects_eq_false_iff_forall.mp h s t ha hb,
      fun h => CharClass.isEmpty_iff_forall.mp h s ha⟩
  case exact =>
    intro hna
    obtain rfl := ha.eq_may hna
    refine ⟨Iff.rfl, CharClass.isEmpty_iff_may, fun hnb => ?_⟩
    obtain rfl := hb.eq_may hnb
    refine ⟨?_, CharClass.intersects_eq_false_iff_ends⟩
    rw [CharClass.isSubsetOf_iff_ends, CharClass.may_eq_must hnb]

/-- The classes of two words with different accents are partial, and so is their difference. What is
left of all characters without two of them is known exactly. -/
theorem operations_represent_accented :
    let plain := {c | c ∈ "<>".toList}ᶜ
    (CharClass.ofText "né").Represents {c | c ∈ "né".toList} ∧
      (CharClass.ofText "nè").Represents {c | c ∈ "nè".toList} ∧
      ((CharClass.ofText "né").diff (.ofText "nè")).Represents
        ({c | c ∈ "né".toList} \ {c | c ∈ "nè".toList}) ∧
      (CharClass.ofText "né").isSubsetOf (.ofText "nè") = false ∧
      (CharClass.ofText "<>").compl.Represents plain ∧
      (CharClass.ofText "<").Represents {c | c ∈ "<".toList} ∧
      (CharClass.ofText "<>").compl.nonAscii = .all ∧ (CharClass.ofText "<").nonAscii = .none ∧
      plain ∩ {c | c ∈ "<".toList} = ∅ := by
  have hacute := CharClass.represents_ofText "né"
  have hgrave := CharClass.represents_ofText "nè"
  have hplain := (CharClass.represents_ofText "<>").compl
  have hopen := CharClass.represents_ofText "<"
  have hdiff := (operations_represent hacute hgrave 'é' "").1.2.2.2.2.1
  have hexact := (operations_represent hplain hopen '<' "").2.2 (by decide)
  exact ⟨hacute, hgrave, hdiff, by decide, hplain, hopen, by decide, by decide,
    (hexact.2.2 (by decide)).2.mp (by decide)⟩

end FlowSafety
