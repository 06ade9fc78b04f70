import FlowSafety.Proofs.Charset.CharClass
import Mathlib.Algebra.GroupWithZero.Nat
import Mathlib.Order.Interval.Finset.Nat

/-!
# Coverage of ranges

`CharClass.ofRanges` never looks which characters beyond ASCII its ranges cover. It counts, range by
range and without the surrogate codes, and compares the count with the number of all of them. As
long as the ranges are disjoint no character is counted twice, so the comparison is one of finite
sets: as many as there are means all of them. The count stops at the largest number of 32 bits, far
beyond the number that it is compared with.

* `getLsbD_ofRanges` — the bits are the ASCII characters of the ranges
* `card_wideCodes` — what a range counts is the number of its characters beyond ASCII
* `card_coveredCodes` — what disjoint ranges count together is the number of those they cover
* `ofRanges_decides_coverage` — bits and level together
-/

namespace FlowSafety.CharClass

variable {ranges : List (Char × Char)} {r t : Char × Char} {c : Char} {n : Nat}

/-- The range holds the character; an inverted range holds none. -/
def InRange (r : Char × Char) (c : Char) : Prop := r.1 ≤ c ∧ c ≤ r.2

/-- One of the ranges holds the character. -/
def IsCovered (ranges : List (Char × Char)) (c : Char) : Prop := ∃ r ∈ ranges, InRange r c

/-- No character is in two of the ranges. -/
def AreDisjoint (ranges : List (Char × Char)) : Prop :=
  ranges.Pairwise fun r t => ∀ c, InRange r c → ¬ InRange t c

theorem inRange_iff : InRange r c ↔ r.1.toNat ≤ c.toNat ∧ c.toNat ≤ r.2.toNat := Iff.rfl

/-! ## ASCII -/

theorem getLsbD_asciiRange {lo hi : Nat} (hn : n < 128) :
    (asciiRange lo hi).getLsbD n = true ↔ lo ≤ n ∧ n ≤ hi := by
  unfold asciiRange
  simp only [BitVec.getLsbD_and, BitVec.getLsbD_shiftLeft, BitVec.getLsbD_ushiftRight,
    BitVec.getLsbD_allOnes, Bool.and_eq_true, Bool.not_eq_true', decide_eq_true_eq,
    decide_eq_false_iff_not]
  omega

theorem getLsbD_foldl_asciiRange {bits : BitVec 128} (hn : n < 128) :
    (ranges.foldl (fun bits r => bits ||| asciiRange r.1.toNat r.2.toNat) bits).getLsbD n = true ↔
      bits.getLsbD n = true ∨ ∃ r ∈ ranges, r.1.toNat ≤ n ∧ n ≤ r.2.toNat := by
  induction ranges generalizing bits with
  | nil => simp
  | cons r ranges ih =>
    rw [List.foldl_cons, ih, BitVec.getLsbD_or, Bool.or_eq_true, getLsbD_asciiRange hn,
      List.exists_mem_cons_iff, or_assoc]

theorem contains_ofRanges_ascii (hc : c.toNat < 128) :
    (ofRanges ranges).contains c = true ↔ IsCovered ranges c := by
  have hstart : (0 : BitVec 128).getLsbD c.toNat ≠ true := by simp
  rw [contains_ascii hc, ofRanges, getLsbD_foldl_asciiRange hc]
  exact or_iff_right hstart

/-! ## Counting -/

/-- A count that stops at a limit is the count, as far as the limit. -/
theorem foldl_saturating {α : Type} {f : α → Nat} {limit start : Nat} {as : List α}
    (hstart : start ≤ limit) :
    as.foldl (fun n a => min (n + f a) limit) start = min (start + (as.map f).sum) limit := by
  induction as generalizing start with
  | nil => simp [hstart]
  | cons a as ih =>
    rw [List.foldl_cons, ih (Nat.min_le_right _ _), List.map_cons, List.sum_cons]
    omega

theorem nonAscii_ofRanges :
    (ofRanges ranges).nonAscii =
      if (ranges.map wideCount).sum = 0 then .none
      else if nonAsciiCount ≤ (ranges.map wideCount).sum then .all else .some := by
  have hwide := @foldl_saturating _ wideCount Size.largestSmall 0 ranges (Nat.zero_le _)
  -- the count stops far behind both numbers that it is compared with
  have hzero : min (0 + (ranges.map wideCount).sum) Size.largestSmall = 0 ↔
      (ranges.map wideCount).sum = 0 := by
    unfold Size.largestSmall
    omega
  have hall : nonAsciiCount ≤ min (0 + (ranges.map wideCount).sum) Size.largestSmall ↔
      nonAsciiCount ≤ (ranges.map wideCount).sum := by
    unfold Size.largestSmall nonAsciiCount
    omega
  unfold ofRanges
  simp only [hwide, hzero, hall]

/-! ## Codes beyond ASCII -/

/-- The codes of the characters beyond ASCII between two codes. -/
def wideBetween (lo hi : Nat) : Finset Nat :=
  Finset.Icc (max lo 128) hi \ Finset.Icc 0xD800 0xDFFF

/-- The codes of the characters beyond ASCII in a range. -/
def wideCodes (r : Char × Char) : Finset Nat := wideBetween r.1.toNat r.2.toNat

/-- The codes of the characters beyond ASCII that some ranges cover. -/
def coveredCodes : List (Char × Char) → Finset Nat
  | [] => ∅
  | r :: ranges => wideCodes r ∪ coveredCodes ranges

/-- The codes of all characters beyond ASCII. -/
def allWide : Finset Nat := wideBetween 128 0x10FFFF

theorem card_wideBetween {lo hi : Nat} : (wideBetween lo hi).card = countIn (max lo 128) hi := by
  have hskipped : Finset.Icc 0xD800 0xDFFF ∩ Finset.Icc (max lo 128) hi =
      Finset.Icc (max 0xD800 lo) (min 0xDFFF hi) := by
    ext n
    simp only [Finset.mem_inter, Finset.mem_Icc]
    omega
  rw [wideBetween, Finset.card_sdiff, hskipped, Nat.card_Icc, Nat.card_Icc, countIn]
  omega

theorem card_wideCodes : (wideCodes r).card = wideCount r := card_wideBetween

theorem card_allWide : allWide.card = nonAsciiCount := card_wideBetween

theorem mem_wideBetween {lo hi : Nat} :
    c.toNat ∈ wideBetween lo hi ↔ 128 ≤ c.toNat ∧ lo ≤ c.toNat ∧ c.toNat ≤ hi := by
  have hvalid := toNat_cases c
  simp only [wideBetween, Finset.mem_sdiff, Finset.mem_Icc]
  omega

theorem mem_wideCodes : c.toNat ∈ wideCodes r ↔ 128 ≤ c.toNat ∧ InRange r c := mem_wideBetween

theorem mem_allWide : c.toNat ∈ allWide ↔ 128 ≤ c.toNat := by
  have hvalid := toNat_cases c
  rw [allWide, mem_wideBetween]
  omega

/-- Every code that a range counts is that of a character. -/
theorem exists_char_of_mem_wideBetween {lo hi : Nat} (hhi : hi ≤ 0x10FFFF)
    (hn : n ∈ wideBetween lo hi) : ∃ c : Char, c.toNat = n := by
  simp only [wideBetween, Finset.mem_sdiff, Finset.mem_Icc] at hn
  have hvalid : n.isValidChar := by
    unfold Nat.isValidChar
    omega
  exact ⟨Char.ofNat n, toNat_ofNat hvalid⟩

theorem toNat_le_max (c : Char) : c.toNat ≤ 0x10FFFF := by
  have hvalid := toNat_cases c
  omega

theorem exists_char_of_mem_wideCodes (hn : n ∈ wideCodes r) : ∃ c : Char, c.toNat = n :=
  exists_char_of_mem_wideBetween (toNat_le_max r.2) hn

theorem mem_coveredCodes : n ∈ coveredCodes ranges ↔ ∃ r ∈ ranges, n ∈ wideCodes r := by
  induction ranges with
  | nil => simp [coveredCodes]
  | cons r ranges ih => rw [coveredCodes, Finset.mem_union, ih, List.exists_mem_cons_iff]

theorem mem_coveredCodes_char :
    c.toNat ∈ coveredCodes ranges ↔ 128 ≤ c.toNat ∧ IsCovered ranges c := by
  simp only [mem_coveredCodes, mem_wideCodes, IsCovered]
  constructor
  · rintro ⟨r, hr, hwide, hc⟩
    exact ⟨hwide, r, hr, hc⟩
  · rintro ⟨hwide, r, hr, hc⟩
    exact ⟨r, hr, hwide, hc⟩

theorem exists_char_of_mem_coveredCodes (hn : n ∈ coveredCodes ranges) :
    ∃ c : Char, c.toNat = n := by
  obtain ⟨r, -, hn⟩ := mem_coveredCodes.mp hn
  exact exists_char_of_mem_wideCodes hn

theorem coveredCodes_subset : coveredCodes ranges ⊆ allWide := by
  intro n hn
  obtain ⟨c, rfl⟩ := exists_char_of_mem_coveredCodes hn
  exact mem_allWide.mpr (mem_coveredCodes_char.mp hn).1

/-- Disjoint ranges count no character twice. -/
theorem card_coveredCodes (hdisjoint : AreDisjoint ranges) :
    (coveredCodes ranges).card = (ranges.map wideCount).sum := by
  induction ranges with
  | nil => rfl
  | cons r ranges ih =>
    obtain ⟨hr, hranges⟩ := List.pairwise_cons.mp hdisjoint
    have happart : Disjoint (wideCodes r) (coveredCodes ranges) := by
      rw [Finset.disjoint_left]
      intro n hn hn'
      obtain ⟨c, rfl⟩ := exists_char_of_mem_wideCodes hn
      obtain ⟨-, t, ht, hc⟩ := mem_coveredCodes_char.mp hn'
      exact hr t ht c (mem_wideCodes.mp hn).2 hc
    rw [coveredCodes, Finset.card_union_of_disjoint happart, card_wideCodes, ih hranges,
      List.map_cons, List.sum_cons]

/-- The class holds what the ranges cover, also where they overlap. -/
theorem contains_ofRanges_of_isCovered (h : IsCovered ranges c) :
    (ofRanges ranges).contains c = true := by
  by_cases hc : c.toNat < 128
  · exact (contains_ofRanges_ascii hc).mpr h
  -- beyond ASCII it is enough that something is counted, be it counted twice
  · obtain ⟨r, hr, hrange⟩ := h
    have hmem : c.toNat ∈ wideCodes r := mem_wideCodes.mpr ⟨Nat.not_lt.mp hc, hrange⟩
    have hcount : 0 < wideCount r := by
      rw [← card_wideCodes]
      exact Finset.card_pos.mpr ⟨_, hmem⟩
    have hsum : 0 < (ranges.map wideCount).sum :=
      List.sum_pos_iff_exists_pos_nat.mpr ⟨_, List.mem_map_of_mem hr, hcount⟩
    rw [contains_wide hc, nonAscii_ofRanges, if_neg (by omega)]
    split <;> decide

theorem contains_ofRange_of_le {lo hi : Char} (hlo : lo.toNat ≤ c.toNat)
    (hhi : c.toNat ≤ hi.toNat) : (ofRange lo hi).contains c = true :=
  contains_ofRanges_of_isCovered ⟨(lo, hi), List.mem_singleton_self _, hlo, hhi⟩

/-! ## Levels -/

/-- Nothing is counted where nothing is covered. -/
theorem sum_wideCount_eq_zero_iff (hdisjoint : AreDisjoint ranges) :
    (ranges.map wideCount).sum = 0 ↔ ∀ c : Char, 128 ≤ c.toNat → ¬ IsCovered ranges c := by
  rw [← card_coveredCodes hdisjoint, Finset.card_eq_zero, Finset.eq_empty_iff_forall_notMem]
  constructor
  · intro hempty c hwide hc
    exact hempty _ (mem_coveredCodes_char.mpr ⟨hwide, hc⟩)
  · intro hnone n hn
    obtain ⟨c, rfl⟩ := exists_char_of_mem_coveredCodes hn
    obtain ⟨hwide, hc⟩ := mem_coveredCodes_char.mp hn
    exact hnone c hwide hc

/-- As many as there are are counted only where all are covered. -/
theorem nonAsciiCount_le_sum_iff (hdisjoint : AreDisjoint ranges) :
    nonAsciiCount ≤ (ranges.map wideCount).sum ↔
      ∀ c : Char, 128 ≤ c.toNat → IsCovered ranges c := by
  rw [← card_coveredCodes hdisjoint, ← card_allWide]
  constructor
  · intro hle c hwide
    have heq : coveredCodes ranges = allWide :=
      Finset.eq_of_subset_of_card_le coveredCodes_subset hle
    have hc : c.toNat ∈ coveredCodes ranges := by
      rw [heq]
      exact mem_allWide.mpr hwide
    exact (mem_coveredCodes_char.mp hc).2
  · intro hall
    refine Finset.card_le_card fun n hn => ?_
    obtain ⟨c, rfl⟩ := exists_char_of_mem_wideBetween (Nat.le_refl _) hn
    have hwide := mem_allWide.mp hn
    exact mem_coveredCodes_char.mpr ⟨hwide, hall c hwide⟩

/-- The class of disjoint ranges holds the ASCII characters that they cover. It holds no character
beyond ASCII if they cover none, all of them if they cover all, and some otherwise. -/
theorem ofRanges_decides_coverage (hdisjoint : AreDisjoint ranges) :
    (∀ c : Char, c.toNat < 128 → ((ofRanges ranges).contains c = true ↔ IsCovered ranges c)) ∧
      ((ofRanges ranges).nonAscii = .none ↔
        ∀ c : Char, 128 ≤ c.toNat → ¬ IsCovered ranges c) ∧
      ((ofRanges ranges).nonAscii = .all ↔ ∀ c : Char, 128 ≤ c.toNat → IsCovered ranges c) ∧
      ((ofRanges ranges).nonAscii = .some ↔
        (∃ c : Char, 128 ≤ c.toNat ∧ IsCovered ranges c) ∧
          ∃ c : Char, 128 ≤ c.toNat ∧ ¬ IsCovered ranges c) := by
  have hnone := sum_wideCount_eq_zero_iff hdisjoint
  have hall := nonAsciiCount_le_sum_iff hdisjoint
  have hmixed : (∃ c : Char, 128 ≤ c.toNat ∧ IsCovered ranges c) ∧
      (∃ c : Char, 128 ≤ c.toNat ∧ ¬ IsCovered ranges c) ↔
      ¬ (ranges.map wideCount).sum = 0 ∧ ¬ nonAsciiCount ≤ (ranges.map wideCount).sum := by
    rw [hnone, hall]
    push Not
    rfl
  refine ⟨fun c hc => contains_ofRanges_ascii hc, ?_⟩
  rw [← hnone, ← hall, hmixed, nonAscii_ofRanges]
  have hpositive : 0 < nonAsciiCount := by decide
  split
  case isTrue hzero => simp [hzero, hpositive.not_ge]
  case isFalse hzero =>
    split
    case isTrue hfull => simp [hzero, hfull]
    case isFalse hfull => simp [hzero, hfull]

/-- Three ranges out of order, the second of them void, leave no character beyond ASCII out: the
gap between the others holds surrogate codes only. -/
theorem ofRanges_decides_coverage_around_surrogates :
    AreDisjoint [('\uE000', Char.ofNat 0x10FFFF), ('z', 'a'), ('a', '\uD7FF')] ∧
      (∀ c : Char, 128 ≤ c.toNat →
        IsCovered [('\uE000', Char.ofNat 0x10FFFF), ('z', 'a'), ('a', '\uD7FF')] c) ∧
      IsCovered [('\uE000', Char.ofNat 0x10FFFF), ('z', 'a'), ('a', '\uD7FF')] 'b' := by
  have hdisjoint : AreDisjoint [('\uE000', Char.ofNat 0x10FFFF), ('z', 'a'), ('a', '\uD7FF')] := by
    simp only [AreDisjoint, inRange_iff, List.pairwise_cons, List.mem_cons, List.not_mem_nil,
      or_false, forall_eq_or_imp, forall_eq, List.Pairwise.nil, IsEmpty.forall_iff, implies_true,
      and_true]
    refine ⟨⟨fun c hc => ?_, fun c hc => ?_⟩, fun c hc => ?_⟩ <;>
      simp only [Char.reduceToNat] at hc ⊢ <;> omega
  obtain ⟨hascii, -, hall, -⟩ := ofRanges_decides_coverage hdisjoint
  exact ⟨hdisjoint, hall.mp (by decide), (hascii 'b' (by decide)).mp (by decide)⟩

end FlowSafety.CharClass
