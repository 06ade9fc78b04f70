import FlowSafety.Pattern.CodeSet

/-!
# Members of code sets

The operations on sets of codes as operations on their members. `CodeSet.Regular` is the form in
which they answer: ranges that ascend and do not touch, and that neither begin nor end beside the
surrogates, where the code after another is not the next number.

* `covered_ofRanges`, `regular_ofRanges` — ranges in any order
* `contains_inter`, `contains_diff`, `contains_symmDiff`, `contains_compl` — the members
-/

namespace FlowSafety.Pattern

/-! ## Covered codes -/

/-- Whether a code is in one of some ranges. -/
def Covered (rs : List (Nat × Nat)) (n : Nat) : Prop := ∃ r ∈ rs, r.1 ≤ n ∧ n ≤ r.2

theorem covered_nil {n : Nat} : Covered [] n ↔ False := by simp [Covered]

theorem covered_cons {r : Nat × Nat} {rs : List (Nat × Nat)} {n : Nat} :
    Covered (r :: rs) n ↔ (r.1 ≤ n ∧ n ≤ r.2) ∨ Covered rs n := by simp [Covered]

theorem covered_append {rs ts : List (Nat × Nat)} {n : Nat} :
    Covered (rs ++ ts) n ↔ Covered rs n ∨ Covered ts n := by
  simp [Covered, or_and_right, exists_or]

theorem covered_guarded {p : Prop} [Decidable p] {lo hi n : Nat} :
    Covered (if p then [(lo, hi)] else []) n ↔ p ∧ lo ≤ n ∧ n ≤ hi := by
  split <;> simp [covered_cons, covered_nil, *]

/-- Ranges that start later do not cover a code. -/
theorem not_covered_of_lt {rs : List (Nat × Nat)} {m n : Nat} (hrs : ∀ r ∈ rs, m < r.1)
    (hn : n ≤ m) : ¬ Covered rs n := by
  rintro ⟨r, hr, hle, -⟩
  have := hrs r hr
  omega

theorem CodeSet.contains_iff {s : CodeSet} {n : Nat} :
    s.contains n = true ↔ Covered s.ranges n := by
  simp [contains, Covered]

/-- A number at which ranges may be cut: the code before it precedes it without a gap. -/
def IsCut (n : Nat) : Prop := n ≤ 0x110000 ∧ (n < 0xD800 ∨ 0xE000 < n)

instance (n : Nat) : Decidable (IsCut n) := inferInstanceAs (Decidable (_ ∧ _))

theorem isValidChar_of_isCut {n : Nat} (h : IsCut n) (hn : n < 0x110000) : n.isValidChar := by
  unfold IsCut at h
  unfold Nat.isValidChar
  omega

/-- The form of a range. -/
structure IsPiece (r : Nat × Nat) : Prop where
  ordered : r.1 ≤ r.2
  first : IsCut r.1
  behind : IsCut (r.2 + 1)

/-- The form of a set: its ranges ascend, and codes are missing between them. -/
structure CodeSet.Regular (s : CodeSet) : Prop where
  pieces : ∀ r ∈ s.ranges, IsPiece r
  apart : s.ranges.Pairwise fun r t => r.2 + 1 < t.1

namespace CodeSet

variable {s t : CodeSet} {d : Domain} {n : Nat} {rs : List (Nat × Nat)}

/-! ## Joining ranges -/

/-- Ranges that are joined begin where one of them began and end where one ended. -/
theorem ends_cons {P Q : Nat → Prop} {lo hi : Nat} (hlo : P lo) (hhi : Q hi)
    (hrs : ∀ r ∈ rs, P r.1 ∧ Q r.2) : ∀ r ∈ cons lo hi rs, P r.1 ∧ Q r.2 := by
  induction rs generalizing hi with
  | nil =>
    intro r hr
    rw [cons, List.mem_singleton] at hr
    subst hr
    exact ⟨hlo, hhi⟩
  | cons r rs ih =>
    obtain ⟨a, b⟩ := r
    obtain ⟨⟨ha, hb⟩, hrest⟩ := List.forall_mem_cons.mp hrs
    rw [cons]
    split
    · refine ih ?_ hrest
      rcases Nat.le_total hi b with hle | hle
      · rw [Nat.max_eq_right hle]
        exact hb
      · rw [Nat.max_eq_left hle]
        exact hhi
    · intro r hr
      rcases List.mem_cons.mp hr with rfl | hr
      · exact ⟨hlo, hhi⟩
      · exact hrs r hr

theorem covered_consRange {lo hi : Nat} (hrs : ∀ r ∈ rs, lo ≤ r.1) :
    Covered (cons lo hi rs) n ↔ (lo ≤ n ∧ n ≤ hi) ∨ Covered rs n := by
  induction rs generalizing hi with
  | nil => rw [cons, covered_cons]
  | cons r rs ih =>
    obtain ⟨a, b⟩ := r
    obtain ⟨ha, hrest⟩ := List.forall_mem_cons.mp hrs
    rw [cons]
    split
    · rename_i htouch
      rw [ih hrest, covered_cons, ← or_assoc]
      refine or_congr_left ?_
      simp only at ha ⊢
      omega
    · rw [covered_cons]

theorem apart_consRange {lo hi : Nat} (hordered : ∀ r ∈ rs, r.1 ≤ r.2)
    (hrs : rs.Pairwise fun r t => r.2 + 1 < t.1) :
    (cons lo hi rs).Pairwise fun r t => r.2 + 1 < t.1 := by
  induction rs generalizing hi with
  | nil => exact List.pairwise_singleton _ _
  | cons r rs ih =>
    obtain ⟨a, b⟩ := r
    obtain ⟨hab, hordered'⟩ := List.forall_mem_cons.mp hordered
    obtain ⟨hfirst, hrest⟩ := List.pairwise_cons.mp hrs
    rw [cons]
    split
    · exact ih hordered' hrest
    · rename_i hgap
      refine List.pairwise_cons.mpr ⟨?_, hrs⟩
      intro t ht
      rcases List.mem_cons.mp ht with rfl | ht
      · simp only
        omega
      · have := hfirst t ht
        simp only at this hab ⊢
        omega

theorem ends_joined {P Q : Nat → Prop} (hrs : ∀ r ∈ rs, P r.1 ∧ Q r.2) :
    ∀ r ∈ joined rs, P r.1 ∧ Q r.2 := by
  induction rs with
  | nil => intro r hr; cases hr
  | cons r rs ih =>
    obtain ⟨⟨hlo, hhi⟩, hrest⟩ := List.forall_mem_cons.mp hrs
    exact ends_cons hlo hhi (ih hrest)

theorem ordered_consRange {lo hi : Nat} (h : lo ≤ hi) (hrs : ∀ r ∈ rs, r.1 ≤ r.2) :
    ∀ r ∈ cons lo hi rs, r.1 ≤ r.2 := by
  induction rs generalizing hi with
  | nil =>
    intro r hr
    rw [cons, List.mem_singleton] at hr
    subst hr
    exact h
  | cons r rs ih =>
    obtain ⟨a, b⟩ := r
    obtain ⟨-, hrest⟩ := List.forall_mem_cons.mp hrs
    rw [cons]
    split
    · exact ih (Nat.le_trans h (Nat.le_max_left _ _)) hrest
    · intro r hr
      rcases List.mem_cons.mp hr with rfl | hr
      · exact h
      · exact hrs r hr

/-- Ranges that are ordered by where they start. -/
abbrev Ascending (rs : List (Nat × Nat)) : Prop := rs.Pairwise fun r t => r.1 ≤ t.1

theorem firsts_joined (lo : Nat) (hrs : ∀ r ∈ rs, lo ≤ r.1) : ∀ r ∈ joined rs, lo ≤ r.1 := by
  intro r hr
  refine (ends_joined (P := (lo ≤ ·)) (Q := fun _ => True) ?_ r hr).1
  intro t ht
  exact ⟨hrs t ht, trivial⟩

theorem covered_joined (hrs : Ascending rs) : Covered (joined rs) n ↔ Covered rs n := by
  induction rs with
  | nil => rfl
  | cons r rs ih =>
    obtain ⟨hfirst, hrest⟩ := List.pairwise_cons.mp hrs
    rw [joined, covered_consRange (firsts_joined r.1 hfirst), ih hrest, covered_cons]

theorem ordered_joined (hrs : ∀ r ∈ rs, r.1 ≤ r.2) : ∀ r ∈ joined rs, r.1 ≤ r.2 := by
  induction rs with
  | nil => intro r hr; cases hr
  | cons r rs ih =>
    obtain ⟨h, hrest⟩ := List.forall_mem_cons.mp hrs
    exact ordered_consRange h (ih hrest)

theorem apart_joined (hrs : ∀ r ∈ rs, r.1 ≤ r.2) :
    (joined rs).Pairwise fun r t => r.2 + 1 < t.1 := by
  induction rs with
  | nil => exact List.Pairwise.nil
  | cons r rs ih =>
    obtain ⟨-, hrest⟩ := List.forall_mem_cons.mp hrs
    exact apart_consRange (ordered_joined hrest) (ih hrest)

/-! ## Ranges in any order -/

/-- The order in which ranges are joined. -/
theorem ascending_mergeSort (rs : List (Nat × Nat)) :
    Ascending (rs.mergeSort fun a b => a.1 < b.1 || (a.1 == b.1 && a.2 ≤ b.2)) := by
  refine (List.pairwise_mergeSort ?_ ?_ rs).imp ?_
  · rintro ⟨a, a'⟩ ⟨b, b'⟩ ⟨c, c'⟩ hab hbc
    simp only [Bool.or_eq_true, Bool.and_eq_true, decide_eq_true_eq, beq_iff_eq] at hab hbc ⊢
    omega
  · rintro ⟨a, a'⟩ ⟨b, b'⟩
    simp only [Bool.or_eq_true, Bool.and_eq_true, decide_eq_true_eq, beq_iff_eq]
    omega
  · rintro ⟨a, a'⟩ ⟨b, b'⟩ hab
    simp only [Bool.or_eq_true, Bool.and_eq_true, decide_eq_true_eq, beq_iff_eq] at hab ⊢
    omega

theorem covered_ofRanges : Covered (ofRanges rs).ranges n ↔ Covered rs n := by
  rw [ofRanges, covered_joined (ascending_mergeSort rs)]
  simp [Covered, List.mem_mergeSort]

theorem contains_ofRanges : (ofRanges rs).contains n = true ↔ Covered rs n := by
  rw [contains_iff, covered_ofRanges]

/-- The ranges of a set begin and end where ranges did that it is made of. -/
theorem ends_ofRanges {P Q : Nat → Prop} (hrs : ∀ r ∈ rs, P r.1 ∧ Q r.2) :
    ∀ r ∈ (ofRanges rs).ranges, P r.1 ∧ Q r.2 := by
  refine ends_joined ?_
  intro r hr
  exact hrs r (List.mem_mergeSort.mp hr)

theorem ordered_ofRanges (hrs : ∀ r ∈ rs, r.1 ≤ r.2) :
    ∀ r ∈ (ofRanges rs).ranges, r.1 ≤ r.2 := by
  refine ordered_joined ?_
  intro r hr
  exact hrs r (List.mem_mergeSort.mp hr)

theorem regular_ofRanges (hrs : ∀ r ∈ rs, IsPiece r) : (ofRanges rs).Regular := by
  have hordered : ∀ r ∈ rs, r.1 ≤ r.2 := fun r hr => (hrs r hr).ordered
  refine ⟨?_, apart_joined fun r hr => hordered r (List.mem_mergeSort.mp hr)⟩
  intro r hr
  have hends := ends_ofRanges (P := IsCut) (Q := fun m => IsCut (m + 1))
    (fun t ht => ⟨(hrs t ht).first, (hrs t ht).behind⟩) r hr
  exact ⟨ordered_ofRanges hordered r hr, hends.1, hends.2⟩

theorem contains_canonical : s.canonical.contains n = true ↔ s.contains n = true := by
  rw [canonical, contains_ofRanges, contains_iff]

theorem regular_canonical (hs : s.Regular) : s.canonical.Regular := regular_ofRanges hs.pieces

theorem regular_empty : empty.Regular := ⟨by simp [empty], List.Pairwise.nil⟩

theorem regular_single {lo hi : Nat} (h : IsPiece (lo, hi)) : (CodeSet.mk [(lo, hi)]).Regular :=
  ⟨by simpa using h, List.pairwise_singleton _ _⟩

theorem contains_single {lo hi : Nat} :
    (CodeSet.mk [(lo, hi)]).contains n = true ↔ lo ≤ n ∧ n ≤ hi := by
  simp [contains]

/-! ## Set operations -/

theorem contains_union :
    (s.union t).contains n = true ↔ s.contains n = true ∨ t.contains n = true := by
  rw [union, contains_ofRanges, covered_append, contains_iff, contains_iff]

theorem regular_union (hs : s.Regular) (ht : t.Regular) : (s.union t).Regular := by
  refine regular_ofRanges ?_
  intro r hr
  rcases List.mem_append.mp hr with hr | hr
  · exact hs.pieces r hr
  · exact ht.pieces r hr

theorem contains_inter :
    (s.inter t).contains n = true ↔ s.contains n = true ∧ t.contains n = true := by
  rw [inter, contains_ofRanges, contains_iff, contains_iff]
  constructor
  · rintro ⟨r, hr, hlo, hhi⟩
    obtain ⟨a, ha, hr⟩ := List.mem_flatMap.mp hr
    obtain ⟨b, hb, hr⟩ := List.mem_filterMap.mp hr
    split at hr
    · cases hr
      simp only at hlo hhi
      exact ⟨⟨a, ha, by omega⟩, ⟨b, hb, by omega⟩⟩
    · cases hr
  · rintro ⟨⟨a, ha, hna⟩, ⟨b, hb, hnb⟩⟩
    refine ⟨(max a.1 b.1, min a.2 b.2), ?_, by simp only; omega⟩
    refine List.mem_flatMap.mpr ⟨a, ha, List.mem_filterMap.mpr ⟨b, hb, ?_⟩⟩
    rw [if_pos (by omega)]

theorem regular_inter (hs : s.Regular) (ht : t.Regular) : (s.inter t).Regular := by
  refine regular_ofRanges ?_
  intro r hr
  obtain ⟨a, ha, hr⟩ := List.mem_flatMap.mp hr
  obtain ⟨b, hb, hr⟩ := List.mem_filterMap.mp hr
  obtain ⟨-, ha1, ha2⟩ := hs.pieces a ha
  obtain ⟨-, hb1, hb2⟩ := ht.pieces b hb
  split at hr
  · rename_i hle
    cases hr
    refine ⟨hle, ?_, ?_⟩
    · simp only [IsCut] at ha1 hb1 ⊢
      omega
    · simp only [IsCut] at ha2 hb2 ⊢
      omega
  · cases hr

/-- The parts of a range outside of others that ascend. -/
theorem covered_outside {lo hi : Nat} (hordered : ∀ r ∈ rs, r.1 ≤ r.2)
    (hrs : rs.Pairwise fun r t => r.2 + 1 < t.1) :
    Covered (Unicode.Table.outside lo hi rs) n ↔ (lo ≤ n ∧ n ≤ hi) ∧ ¬ Covered rs n := by
  induction rs generalizing lo with
  | nil =>
    rw [Unicode.Table.outside, covered_guarded]
    simp only [covered_nil, not_false_eq_true, and_true]
    omega
  | cons r rs ih =>
    obtain ⟨a, b⟩ := r
    obtain ⟨hab, hordered'⟩ := List.forall_mem_cons.mp hordered
    obtain ⟨hfirst, hrest⟩ := List.pairwise_cons.mp hrs
    simp only at hab hfirst
    have hbehind : n ≤ b + 1 → ¬ Covered rs n := not_covered_of_lt hfirst
    rw [Unicode.Table.outside, covered_cons]
    split
    · rw [ih hordered' hrest]
      have : ¬ (a ≤ n ∧ n ≤ b) ∨ ¬ (lo ≤ n ∧ n ≤ hi) := by omega
      grind
    · split
      · rw [covered_guarded]
        have : lo ≤ n ∧ n ≤ hi → ¬ (a ≤ n ∧ n ≤ b) ∧ n ≤ b + 1 := by omega
        have : lo ≤ n ∧ n ≤ hi → lo ≤ hi := by omega
        grind
      · rw [covered_append, covered_guarded, ih hordered' hrest]
        by_cases hn : n < a
        · have : ¬ Covered rs n := hbehind (by omega)
          simp only [this, not_false_eq_true, and_true, or_false]
          omega
        · have : b + 1 ≤ n ∧ n ≤ hi ↔ (lo ≤ n ∧ n ≤ hi) ∧ ¬ (a ≤ n ∧ n ≤ b) := by omega
          have : ¬ (lo < a ∧ lo ≤ n ∧ n ≤ a - 1) := by omega
          grind

theorem pieces_outside {lo hi : Nat} (h : IsCut lo) (h' : IsCut (hi + 1))
    (hrs : ∀ r ∈ rs, IsPiece r) : ∀ r ∈ Unicode.Table.outside lo hi rs, IsPiece r := by
  induction rs generalizing lo with
  | nil =>
    intro r hr
    rw [Unicode.Table.outside] at hr
    split at hr
    · rename_i hle
      rw [List.mem_singleton] at hr
      subst hr
      exact ⟨hle, h, h'⟩
    · cases hr
  | cons r rs ih =>
    obtain ⟨a, b⟩ := r
    obtain ⟨⟨-, ha, hb⟩, hrest⟩ := List.forall_mem_cons.mp hrs
    rw [Unicode.Table.outside]
    split
    · exact ih h hrest
    · split
      · split
        · rename_i hle
          intro r hr
          rw [List.mem_singleton] at hr
          subst hr
          exact ⟨hle, h, h'⟩
        · intro r hr
          cases hr
      · intro r hr
        rcases List.mem_append.mp hr with hr | hr
        · split at hr
          · rename_i hlt
            rw [List.mem_singleton] at hr
            subst hr
            refine ⟨by simp only; omega, h, ?_⟩
            simp only [show a - 1 + 1 = a by omega]
            exact ha
          · cases hr
        · exact ih hb hrest r hr

/-- A range that is cut well has no end that its domain lacks. -/
theorem within_of_isPiece {r : Nat × Nat} (h : IsPiece r) : within d r = some r := by
  obtain ⟨hle, hfirst, hbehind⟩ := h
  cases d with
  | bytes => rfl
  | characters =>
    unfold IsCut at hfirst hbehind
    have hlo : ¬ (0xD800 ≤ r.1 ∧ r.1 ≤ 0xDFFF) := by omega
    have hhi : ¬ (0xD800 ≤ r.2 ∧ r.2 ≤ 0xDFFF) := by omega
    simp only [within, hlo, hhi, if_false, hle, if_true]

theorem filterMap_within (hrs : ∀ r ∈ rs, IsPiece r) : rs.filterMap (within d) = rs := by
  induction rs with
  | nil => rfl
  | cons r rs ih =>
    obtain ⟨hr, hrest⟩ := List.forall_mem_cons.mp hrs
    rw [List.filterMap_cons_some (within_of_isPiece hr), ih hrest]

theorem pieces_without (hs : s.Regular) (ht : t.Regular) :
    ∀ r ∈ Unicode.Table.without s.ranges t.ranges, IsPiece r := by
  intro r hr
  obtain ⟨a, ha, hr⟩ := List.mem_flatMap.mp hr
  obtain ⟨-, hfirst, hbehind⟩ := hs.pieces a ha
  exact pieces_outside hfirst hbehind ht.pieces r hr

theorem diff_eq (hs : s.Regular) (ht : t.Regular) :
    diff d s t = ofRanges (Unicode.Table.without s.ranges t.ranges) := by
  rw [diff, filterMap_within (pieces_without hs ht)]

theorem regular_diff (hs : s.Regular) (ht : t.Regular) : (diff d s t).Regular := by
  rw [diff_eq hs ht]
  exact regular_ofRanges (pieces_without hs ht)

theorem contains_diff (hs : s.Regular) (ht : t.Regular) :
    (diff d s t).contains n = true ↔ s.contains n = true ∧ ¬ t.contains n = true := by
  rw [diff_eq hs ht, contains_ofRanges, contains_iff, contains_iff]
  have houtside : ∀ r ∈ s.ranges, Covered (Unicode.Table.outside r.1 r.2 t.ranges) n ↔
      (r.1 ≤ n ∧ n ≤ r.2) ∧ ¬ Covered t.ranges n := fun r _ =>
    covered_outside (fun u hu => (ht.pieces u hu).ordered) ht.apart
  constructor
  · rintro ⟨r, hr, hn⟩
    obtain ⟨a, ha, hr⟩ := List.mem_flatMap.mp hr
    obtain ⟨hin, hout⟩ := (houtside a ha).mp ⟨r, hr, hn⟩
    exact ⟨⟨a, ha, hin⟩, hout⟩
  · rintro ⟨⟨a, ha, hin⟩, hout⟩
    obtain ⟨r, hr, hn⟩ := (houtside a ha).mpr ⟨hin, hout⟩
    exact ⟨r, List.mem_flatMap.mpr ⟨a, ha, hr⟩, hn⟩

theorem regular_symmDiff (hs : s.Regular) (ht : t.Regular) : (symmDiff d s t).Regular :=
  regular_diff (regular_union hs ht) (regular_inter hs ht)

theorem contains_symmDiff (hs : s.Regular) (ht : t.Regular) :
    (symmDiff d s t).contains n = true ↔
      (s.contains n = true ∧ ¬ t.contains n = true) ∨
        (t.contains n = true ∧ ¬ s.contains n = true) := by
  rw [symmDiff, contains_diff (regular_union hs ht) (regular_inter hs ht), contains_union,
    contains_inter]
  grind

/-! ## Complements -/

theorem next_of_isCut {m : Nat} (h : IsCut (m + 1)) : d.next m = m + 1 := by
  unfold IsCut at h
  rw [Domain.next, if_neg (by omega)]

theorem prev_of_isCut {m : Nat} (h : IsCut m) : d.prev m = m - 1 := by
  unfold IsCut at h
  rw [Domain.prev, if_neg (by omega)]

theorem last_characters : Domain.characters.last = 0x10FFFF := rfl

/-- The gaps behind a range are what neither it nor a range behind it covers. -/
theorem covered_gapsAfter {hi : Nat} (hhi : IsCut (hi + 1)) (hrs : ∀ r ∈ rs, IsPiece r)
    (hapart : ∀ r ∈ rs, hi + 1 < r.1) (hrest : rs.Pairwise fun r t => r.2 + 1 < t.1) :
    Covered (gapsAfter .characters hi rs) n ↔ n ≤ 0x10FFFF ∧ hi < n ∧ ¬ Covered rs n := by
  induction rs generalizing hi with
  | nil =>
    rw [gapsAfter, next_of_isCut hhi, last_characters]
    split
    · simp only [covered_cons, covered_nil, or_false, not_false_eq_true, and_true]
      omega
    · simp only [covered_nil, not_false_eq_true, and_true, false_iff]
      omega
  | cons r rs ih =>
    obtain ⟨a, b⟩ := r
    obtain ⟨⟨hab, ha, hb⟩, hpieces⟩ := List.forall_mem_cons.mp hrs
    obtain ⟨hgap, hapart'⟩ := List.forall_mem_cons.mp hapart
    obtain ⟨hfirst, hrest'⟩ := List.pairwise_cons.mp hrest
    simp only at hab ha hb hgap hfirst
    rw [gapsAfter, covered_cons, ih hb hpieces hfirst hrest', next_of_isCut hhi,
      prev_of_isCut ha, between, covered_cons]
    have hbehind : n ≤ b + 1 → ¬ Covered rs n := not_covered_of_lt hfirst
    have hcut : a ≤ 0x110000 := ha.1
    by_cases hn : n < a
    · have : ¬ Covered rs n := hbehind (by omega)
      simp only [this, not_false_eq_true, and_true, or_false]
      omega
    · have : b < n ↔ hi < n ∧ ¬ (a ≤ n ∧ n ≤ b) := by omega
      have : ¬ (min (hi + 1) (a - 1) ≤ n ∧ n ≤ max (hi + 1) (a - 1)) := by omega
      grind

theorem regular_gapsAfter {hi : Nat} (hhi : IsCut (hi + 1)) (hrs : ∀ r ∈ rs, IsPiece r)
    (hapart : ∀ r ∈ rs, hi + 1 < r.1) (hrest : rs.Pairwise fun r t => r.2 + 1 < t.1) :
    (∀ r ∈ gapsAfter .characters hi rs, IsPiece r ∧ hi < r.1) ∧
      (gapsAfter .characters hi rs).Pairwise fun r t => r.2 + 1 < t.1 := by
  induction rs generalizing hi with
  | nil =>
    rw [gapsAfter, next_of_isCut hhi, last_characters]
    split
    · rename_i hlt
      refine ⟨?_, List.pairwise_singleton _ _⟩
      intro r hr
      rw [List.mem_singleton] at hr
      subst hr
      exact ⟨⟨hlt, hhi, by unfold IsCut; omega⟩, Nat.lt_succ_self hi⟩
    · exact ⟨fun r hr => (List.not_mem_nil hr).elim, List.Pairwise.nil⟩
  | cons r rs ih =>
    obtain ⟨a, b⟩ := r
    obtain ⟨⟨hab, ha, hb⟩, hpieces⟩ := List.forall_mem_cons.mp hrs
    obtain ⟨hgap, -⟩ := List.forall_mem_cons.mp hapart
    obtain ⟨hfirst, hrest'⟩ := List.pairwise_cons.mp hrest
    simp only at hab ha hb hgap hfirst
    obtain ⟨ihpieces, ihapart⟩ := ih hb hpieces hfirst hrest'
    rw [gapsAfter, next_of_isCut hhi, prev_of_isCut ha, between,
      Nat.min_eq_left (by omega), Nat.max_eq_right (by omega)]
    refine ⟨?_, List.pairwise_cons.mpr ⟨?_, ihapart⟩⟩
    · intro r hr
      rcases List.mem_cons.mp hr with rfl | hr
      · refine ⟨⟨by simp only; omega, hhi, ?_⟩, Nat.lt_succ_self hi⟩
        simp only [show a - 1 + 1 = a by omega]
        exact ha
      · obtain ⟨hpiece, hlt⟩ := ihpieces r hr
        exact ⟨hpiece, by omega⟩
    · intro t ht
      have := (ihpieces t ht).2
      simp only
      omega

theorem contains_compl (hs : s.Regular) (hn : n ≤ 0x10FFFF) :
    (s.compl .characters).contains n = true ↔ ¬ s.contains n = true := by
  obtain ⟨rs⟩ := s
  rw [contains_iff, contains_iff]
  cases rs with
  | nil =>
    simp only [compl, last_characters, covered_cons, covered_nil, or_false, not_false_eq_true,
      iff_true]
    omega
  | cons r rs =>
    obtain ⟨lo, hi⟩ := r
    obtain ⟨⟨hle, hlo, hhi⟩, hpieces⟩ := List.forall_mem_cons.mp hs.pieces
    obtain ⟨hfirst, hrest⟩ := List.pairwise_cons.mp hs.apart
    simp only at hle hlo hhi
    simp only [compl, covered_append, covered_gapsAfter hhi hpieces hfirst hrest, covered_cons,
      prev_of_isCut hlo]
    have hbehind : n + 1 ≤ lo → ¬ Covered rs n := fun h => not_covered_of_lt hfirst (by omega)
    simp only [covered_guarded]
    by_cases hlt : n < lo
    · have : ¬ Covered rs n := hbehind hlt
      simp only [this, not_false_eq_true, and_true, or_false]
      omega
    · have : hi < n ↔ ¬ (lo ≤ n ∧ n ≤ hi) := by omega
      have : ¬ (0 < lo ∧ 0 ≤ n ∧ n ≤ lo - 1) := by omega
      grind

theorem regular_compl (hs : s.Regular) : (s.compl .characters).Regular := by
  obtain ⟨rs⟩ := s
  cases rs with
  | nil => exact regular_single ⟨by decide, by decide, by decide⟩
  | cons r rs =>
    obtain ⟨lo, hi⟩ := r
    obtain ⟨⟨hle, hlo, hhi⟩, hpieces⟩ := List.forall_mem_cons.mp hs.pieces
    obtain ⟨hfirst, hrest⟩ := List.pairwise_cons.mp hs.apart
    simp only at hle hlo hhi
    obtain ⟨hgaps, hgapsApart⟩ := regular_gapsAfter hhi hpieces hfirst hrest
    refine ⟨?_, ?_⟩
    · intro r hr
      rcases List.mem_append.mp hr with hr | hr
      · split at hr
        · rename_i hpos
          rw [List.mem_singleton, prev_of_isCut hlo] at hr
          subst hr
          refine ⟨Nat.zero_le _, show IsCut 0 by decide, ?_⟩
          simp only [show lo - 1 + 1 = lo by omega]
          exact hlo
        · cases hr
      · exact (hgaps r hr).1
    · refine List.pairwise_append.mpr ⟨?_, hgapsApart, ?_⟩
      · split
        · exact List.pairwise_singleton _ _
        · exact List.Pairwise.nil
      · intro r hr t ht
        have hlt := (hgaps t ht).2
        split at hr
        · rw [List.mem_singleton, prev_of_isCut hlo] at hr
          subst hr
          simp only
          omega
        · cases hr

end CodeSet

end FlowSafety.Pattern
