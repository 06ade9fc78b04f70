import FlowSafety.Proofs.Pattern.Formed
import FlowSafety.Proofs.Pattern.Spans

/-!
# Sets whose ranges ascend

The length of a class is read off its last range, so no earlier range may end with a longer
character. What `CodeSet.ofRanges` answers satisfies this because its ranges do not touch. What such
a set leaves by `CodeSet.compl` need not have this form any more: where nothing but the surrogate
codes lies between two ranges, the gap between them is turned around and may touch the next one. It
is still `CodeSet.Rising`, with a slack around the surrogate codes that grows by one at each turn
and is never more than two, while the codes around there all have the same length.

* `CodeSet.Rising.inOrder` — sets that rise are in order
* `CodeSet.Rising.compl` — what a set leaves
* `rising_of_query` — the sets of properties
* `Denotes.apart` — the sets inside brackets
-/

namespace FlowSafety.Pattern

variable {s t : CodeSet} {d : Domain} {rs ts : List (Nat × Nat)} {m : Mode} {f : Flags}
  {slack : Nat}

/-! ## Forms of sets -/

/-- Both ends of every range are in order. -/
def AllOrdered (rs : List (Nat × Nat)) : Prop := ∀ r ∈ rs, r.1 ≤ r.2

/-- The ranges are in order and do not touch. -/
structure CodeSet.Apart (s : CodeSet) : Prop where
  ordered : AllOrdered s.ranges
  apart : s.ranges.Pairwise fun r t => r.2 + 1 < t.1

/-- A range ends before another, or both end at or behind the surrogate codes and the first one not
far behind. -/
def EndsBefore (slack : Nat) (r t : Nat × Nat) : Prop :=
  r.2 ≤ t.2 ∨ 0xD7FF ≤ t.2 ∧ r.2 < 0xE000 + slack

/-- The ends of the ranges ascend, up to a slack around the surrogate codes. -/
structure CodeSet.Rising (slack : Nat) (s : CodeSet) : Prop where
  ordered : AllOrdered s.ranges
  rising : s.ranges.Pairwise (EndsBefore slack)

theorem CodeSet.Apart.rising (h : s.Apart) : s.Rising slack where
  ordered := h.ordered
  rising := h.apart.imp_of_mem fun {r t} _ ht hapart => by
    have := h.ordered t ht
    exact .inl (by omega)

theorem CodeSet.Rising.mono {slack' : Nat} (h : s.Rising slack) (hle : slack ≤ slack') :
    s.Rising slack' where
  ordered := h.ordered
  rising := h.rising.imp fun {r t} hends => by
    unfold EndsBefore at *
    omega

theorem CodeSet.Rising.inOrder (h : s.Rising slack) (hslack : slack ≤ 2) : s.InOrder where
  ordered := h.ordered
  ascending := h.rising.imp fun {r t} hends => by
    rcases hends with hle | ⟨hlow, hhigh⟩
    · exact utf8Length_mono hle
    · -- around the surrogate codes every character has three bytes
      calc Core.utf8Length r.2 ≤ Core.utf8Length 0xFFFF := utf8Length_mono (by omega)
        _ = Core.utf8Length 0xD7FF := rfl
        _ ≤ Core.utf8Length t.2 := utf8Length_mono hlow

theorem apart_ofRanges (h : AllOrdered rs) : (CodeSet.ofRanges rs).Apart :=
  ⟨CodeSet.ordered_ofRanges h, CodeSet.apart_joined fun r hr => h r (List.mem_mergeSort.mp hr)⟩

theorem apart_single {lo hi : Nat} (h : lo ≤ hi) : (CodeSet.mk [(lo, hi)]).Apart :=
  ⟨by simpa [AllOrdered] using h, List.pairwise_singleton _ _⟩

theorem apart_empty : CodeSet.empty.Apart :=
  ⟨by simp [AllOrdered, CodeSet.empty], List.Pairwise.nil⟩

/-! ## What a set leaves -/

theorem next_le_last {n : Nat} (h : n < d.last) : d.next n ≤ d.last := by
  unfold Domain.next
  cases d with
  | bytes =>
    rw [if_neg (by simp)]
    exact h
  | characters =>
    have h : n < 0x10FFFF := h
    show _ ≤ 0x10FFFF
    split <;> omega

/-- The gap between two ranges ends before what is behind the second one or a later one. -/
theorem endsBefore_between {hi a b : Nat} {r t : Nat × Nat} (hab : a ≤ b)
    (hfirst : EndsBefore slack (hi, hi) r) (hsecond : EndsBefore slack (a, b) r)
    (ht : d.next r.2 ≤ t.2) :
    EndsBefore (slack + 1) (CodeSet.between (d.next hi) (d.prev a)) t := by
  unfold EndsBefore CodeSet.between at *
  unfold Domain.next at ht ⊢
  unfold Domain.prev
  dsimp only at *
  -- each of the three ends may or may not have stepped over the surrogate codes
  split at ht <;> split <;> split <;> omega

/-- Each gap ends behind one of the ranges, and the gaps rise. -/
theorem gapsAfter_spec {hi : Nat} (hordered : AllOrdered rs)
    (hends : ∀ r ∈ rs, EndsBefore slack (hi, hi) r) (hrest : rs.Pairwise (EndsBefore slack)) :
    (∀ t ∈ CodeSet.gapsAfter d hi rs, t.1 ≤ t.2 ∧ ∃ r ∈ (hi, hi) :: rs, d.next r.2 ≤ t.2) ∧
      (CodeSet.gapsAfter d hi rs).Pairwise (EndsBefore (slack + 1)) := by
  induction rs generalizing hi with
  | nil =>
    rw [CodeSet.gapsAfter]
    split
    · next hlt => simpa using next_le_last hlt
    · simp
  | cons r rs ih =>
    obtain ⟨a, b⟩ := r
    obtain ⟨hab, hordered⟩ := List.forall_mem_cons.mp hordered
    obtain ⟨hfirst, hends⟩ := List.forall_mem_cons.mp hends
    obtain ⟨hnext, hrest⟩ := List.pairwise_cons.mp hrest
    obtain ⟨hbounds, hpairwise⟩ := @ih b hordered hnext hrest
    rw [CodeSet.gapsAfter]
    refine ⟨List.forall_mem_cons.mpr ⟨?_, ?_⟩, List.pairwise_cons.mpr ⟨?_, hpairwise⟩⟩
    · refine ⟨?_, (hi, hi), List.mem_cons_self, Nat.le_max_left _ _⟩
      exact Nat.le_trans (Nat.min_le_left _ _) (Nat.le_max_left _ _)
    · intro t ht
      obtain ⟨hle, r, hr, hbound⟩ := hbounds t ht
      rcases List.mem_cons.mp hr with rfl | hr
      · exact ⟨hle, (a, b), by simp, hbound⟩
      · exact ⟨hle, r, by simp [hr], hbound⟩
    · -- a gap further behind is compared by the range that it ends behind
      intro t ht
      obtain ⟨-, r, hr, hbound⟩ := hbounds t ht
      rcases List.mem_cons.mp hr with rfl | hr
      · exact endsBefore_between hab hfirst (.inl (Nat.le_refl b)) hbound
      · exact endsBefore_between hab (hends r hr) (hnext r hr) hbound

theorem endsBefore_first {lo hi : Nat} {r t : Nat × Nat} (hle : lo ≤ hi)
    (hr : EndsBefore slack (lo, hi) r) (ht : d.next r.2 ≤ t.2) :
    EndsBefore (slack + 1) (0, d.prev lo) t := by
  unfold EndsBefore at *
  unfold Domain.next at ht
  unfold Domain.prev
  dsimp only at *
  split at ht <;> split <;> omega

/-- What a set leaves rises as it does, with a little more slack. -/
theorem CodeSet.Rising.compl (h : s.Rising slack) : (s.compl d).Rising (slack + 1) := by
  obtain ⟨rs⟩ := s
  cases rs with
  | nil => exact (apart_single (Nat.zero_le _)).rising
  | cons r rs =>
    obtain ⟨lo, hi⟩ := r
    obtain ⟨hle, hordered⟩ := List.forall_mem_cons.mp h.ordered
    obtain ⟨hends, hrest⟩ := List.pairwise_cons.mp h.rising
    obtain ⟨hbounds, hpairwise⟩ := @gapsAfter_spec d rs slack hi hordered hends hrest
    have hhead : ∀ t ∈ (if 0 < lo then [(0, d.prev lo)] else []), t = (0, d.prev lo) := by
      split <;> simp
    refine ⟨fun t ht => ?_, List.pairwise_append.mpr ⟨?_, hpairwise, fun r hr t ht => ?_⟩⟩
    · rcases List.mem_append.mp ht with ht | ht
      · rw [hhead t ht]
        exact Nat.zero_le _
      · exact (hbounds t ht).1
    · split
      · exact List.pairwise_singleton _ _
      · exact List.Pairwise.nil
    · rw [hhead r hr]
      obtain ⟨-, u, hu, hbound⟩ := hbounds t ht
      rcases List.mem_cons.mp hu with rfl | hu
      · exact endsBefore_first hle (.inl (Nat.le_refl hi)) hbound
      · exact endsBefore_first hle (hends u hu) hbound

theorem CodeSet.Rising.apart_canonical (h : s.Rising slack) : s.canonical.Apart :=
  apart_ofRanges h.ordered

/-! ## Operations on sets -/

theorem ordered_outside {lo hi : Nat} :
    AllOrdered (Unicode.Table.outside lo hi rs) := by
  induction rs generalizing lo with
  | nil =>
    rw [Unicode.Table.outside]
    split <;> simp [AllOrdered, *]
  | cons r rs ih =>
    obtain ⟨a, b⟩ := r
    rw [Unicode.Table.outside]
    split
    · exact ih
    · split
      · split <;> simp [AllOrdered, *]
      · refine List.forall_mem_append.mpr ⟨?_, ih⟩
        split
        · next hlt => simpa using Nat.le_sub_one_of_lt hlt
        · simp

theorem ordered_without : AllOrdered (Unicode.Table.without rs ts) := by
  intro r hr
  obtain ⟨a, -, hr⟩ := List.mem_flatMap.mp hr
  exact ordered_outside r hr

theorem ordered_of_within {r r' : Nat × Nat} (hr : r.1 ≤ r.2)
    (h : CodeSet.within d r = some r') : r'.1 ≤ r'.2 := by
  cases d with
  | bytes =>
    cases h
    exact hr
  | characters =>
    obtain ⟨hle, h⟩ := Option.ite_none_right_eq_some.mp h
    obtain rfl := Option.some.inj h
    exact hle

theorem apart_inter : (s.inter t).Apart := by
  refine apart_ofRanges fun r hr => ?_
  obtain ⟨a, -, hr⟩ := List.mem_flatMap.mp hr
  obtain ⟨b, -, hr⟩ := List.mem_filterMap.mp hr
  split at hr
  · next hle =>
    cases hr
    exact hle
  · contradiction

theorem apart_diff : (s.diff d t).Apart := by
  refine apart_ofRanges fun r hr => ?_
  obtain ⟨r', hr', hr⟩ := List.mem_filterMap.mp hr
  exact ordered_of_within (ordered_without r' hr') hr

theorem apart_apply {op : ClassOp} : (op.apply d s t).Apart := by
  cases op with
  | inter => exact apart_inter
  | diff => exact apart_diff
  | symmDiff => exact apart_diff

theorem ordered_shiftedLetters {first last : Nat} {move : Nat → Nat}
    (hmove : ∀ a b, a ≤ b → move a ≤ move b) :
    AllOrdered (s.shiftedLetters first last move) := by
  intro r hr
  obtain ⟨a, ha, rfl⟩ := List.mem_map.mp hr
  exact hmove a.1 a.2 (apart_inter.ordered a ha)

theorem apart_foldCase (hs : AllOrdered s.ranges) : (s.foldCase d).Apart := by
  cases d with
  | bytes =>
    refine apart_ofRanges (List.forall_mem_append.mpr
      ⟨List.forall_mem_append.mpr ⟨hs, ordered_shiftedLetters ?_⟩, ordered_shiftedLetters ?_⟩)
    · intro a b hab
      omega
    · intro a b hab
      omega
  | characters =>
    refine apart_ofRanges (List.forall_mem_append.mpr ⟨hs, fun r hr => ?_⟩)
    obtain ⟨orbit, -, hr⟩ := List.mem_flatMap.mp hr
    obtain ⟨n, -, rfl⟩ := List.mem_map.mp hr
    exact Nat.le_refl n

/-! ## Tables -/

theorem ordered_rangesFrom {start : Nat} {gaps : List (Nat × Nat)} :
    AllOrdered (Unicode.Table.rangesFrom start gaps) := by
  induction gaps generalizing start with
  | nil => simp [AllOrdered, Unicode.Table.rangesFrom]
  | cons gap gaps ih =>
    obtain ⟨gap, more⟩ := gap
    exact List.forall_mem_cons.mpr ⟨Nat.le_add_right _ _, ih⟩

theorem ordered_table (text : String) : AllOrdered (Unicode.Table.ranges text) := ordered_rangesFrom

theorem ordered_rowRanges {rows : List (String × String)} {name : String}
    (h : Unicode.Table.rowRanges? rows name = some rs) : AllOrdered rs := by
  obtain ⟨row, -, rfl⟩ := Option.map_eq_some_iff.mp h
  exact ordered_table row.2

theorem ordered_runsFrom {start : Nat} {runs : List (Nat × Nat)} :
    ∀ run ∈ Unicode.Category.runsFrom start runs, run.2.1 ≤ run.2.2 := by
  induction runs generalizing start with
  | nil => simp [Unicode.Category.runsFrom]
  | cons run runs ih =>
    obtain ⟨number, more⟩ := run
    exact List.forall_mem_cons.mpr ⟨Nat.le_add_right _ _, ih⟩

theorem ordered_category (cs : List Unicode.Category) :
    AllOrdered (Unicode.Category.ranges cs) := by
  intro r hr
  obtain ⟨run, hrun, rfl⟩ := List.mem_map.mp hr
  exact ordered_runsFrom run (List.mem_of_mem_filter hrun)

theorem ordered_script {name : String} (h : Unicode.Script.ranges? name = some rs) :
    AllOrdered rs := by
  obtain ⟨row, -, rfl⟩ := Option.map_eq_some_iff.mp h
  exact ordered_table _

theorem ordered_extendedScript {name : String} (h : Unicode.Script.extendedRanges? name = some rs) :
    AllOrdered rs := by
  obtain ⟨row, -, rfl⟩ := Option.map_eq_some_iff.mp h
  exact List.forall_mem_append.mpr ⟨ordered_without, ordered_table _⟩

theorem ordered_age {name : String} (h : Unicode.Age.ranges? name = some rs) : AllOrdered rs := by
  obtain ⟨rows, -, rfl⟩ := Option.map_eq_some_iff.mp h
  intro r hr
  obtain ⟨row, -, hr⟩ := List.mem_flatMap.mp hr
  exact ordered_table row.2 r hr

theorem ordered_value {name value : String} (h : valueRanges? name value = some rs) :
    AllOrdered rs := by
  unfold valueRanges? at h
  split at h
  · exact ordered_script h
  · split at h
    · exact ordered_extendedScript h
    · split at h
      · exact ordered_age h
      · split at h
        · exact ordered_rowRanges h
        · split at h
          · exact ordered_rowRanges h
          · split at h
            · exact ordered_rowRanges h
            · contradiction

/-! ## Named sets -/

theorem rising_category {name : String} (h : categorySet? name = some s) : s.Rising 1 := by
  unfold categorySet? at h
  split at h
  · cases h
    exact (apart_single (by decide)).rising
  · cases h
    exact (apart_single (by decide)).rising
  · cases h
    exact (apart_ofRanges (ordered_category _)).rising.compl
  · obtain ⟨cs, -, rfl⟩ := Option.map_eq_some_iff.mp h
    exact (apart_ofRanges (ordered_category cs)).rising

theorem rising_named {name : String} (h : namedSet? name = some s) : s.Rising 1 := by
  unfold namedSet? at h
  rw [Option.or_eq_some_iff, Option.or_eq_some_iff] at h
  rcases h with h | ⟨-, h | ⟨-, h⟩⟩
  · unfold binarySet? at h
    split at h
    · contradiction
    · obtain ⟨rs, hrs, rfl⟩ := Option.map_eq_some_iff.mp h
      exact (apart_ofRanges (ordered_rowRanges hrs)).rising
  · exact rising_category h
  · obtain ⟨rs, hrs, rfl⟩ := Option.map_eq_some_iff.mp h
    exact (apart_ofRanges (ordered_script hrs)).rising

theorem rising_valued {name value : String} (h : valuedSet? name value = some s) : s.Rising 1 := by
  unfold valuedSet? at h
  split at h
  · exact rising_category h
  · obtain ⟨rs, hrs, rfl⟩ := Option.map_eq_some_iff.mp h
    exact (apart_ofRanges (ordered_value hrs)).rising

/-- The set of a property has been turned around once at most. -/
theorem rising_of_query {query : PropertyQuery} {negated : Bool}
    (h : query.set? = some (s, negated)) : s.Rising 1 := by
  cases query with
  | named name =>
    obtain ⟨s', hs, heq⟩ := Option.map_eq_some_iff.mp h
    cases heq
    exact rising_named hs
  | valued name value equal =>
    obtain ⟨s', hs, heq⟩ := Option.map_eq_some_iff.mp h
    cases heq
    exact rising_valued hs

theorem apart_namedClass (k : NamedClass) : k.set.Apart := by
  refine apart_ofRanges fun r hr => ?_
  revert r
  cases k <;> decide

theorem ordered_property (name : String) :
    AllOrdered ((Unicode.Property.ranges? name).getD []) := by
  cases h : Unicode.Property.ranges? name with
  | none => exact fun r hr => absurd hr List.not_mem_nil
  | some rs => exact ordered_rowRanges h

theorem apart_letter (k : LetterClass) : k.ascii.Apart ∧ k.characters.Apart := by
  cases k with
  | digit => exact ⟨apart_namedClass .digit, apart_ofRanges (ordered_category _)⟩
  | space => exact ⟨apart_namedClass .space, apart_ofRanges (ordered_property _)⟩
  | word =>
    refine ⟨apart_namedClass .word, apart_ofRanges ?_⟩
    exact List.forall_mem_append.mpr
      ⟨List.forall_mem_append.mpr ⟨ordered_property _, ordered_category _⟩, ordered_property _⟩

/-! ## Sets in patterns -/

theorem rising_turned {negated : Bool} (hs : s.Rising 1) :
    (if negated then s.compl d else s).Rising 2 := by
  split
  · exact hs.compl
  · exact hs.mono (by decide)

theorem rising_finish {negated : Bool} (hs : s.Rising 1) (h : finish? m f negated s = some t) :
    t.Rising 2 := by
  have hfolded : (if f.caseInsensitive then s.foldCase f.domain else s).Rising 1 := by
    split
    · exact (apart_foldCase hs.ordered).rising
    · exact hs
  obtain ⟨-, h⟩ := Option.ite_none_right_eq_some.mp h
  obtain rfl := Option.some.inj h
  exact rising_turned hfolded

theorem rising_letter {kind : LetterClass} {negated : Bool}
    (h : letterSet? m f kind negated = some t) : t.Rising 2 := by
  have hletter : (if f.unicode then kind.characters else kind.ascii).Apart := by
    split
    · exact (apart_letter kind).2
    · exact (apart_letter kind).1
  obtain ⟨-, h⟩ := Option.ite_none_right_eq_some.mp h
  obtain rfl := Option.some.inj h
  exact rising_turned hletter.rising

theorem rising_property {query : PropertyQuery} {negated : Bool}
    (h : propertySet? m f query negated = some t) : t.Rising 2 := by
  unfold propertySet? at h
  split at h
  · obtain ⟨⟨s, turned⟩, hquery, h⟩ := Option.bind_eq_some_iff.mp h
    exact rising_finish (rising_of_query hquery) h
  · contradiction

theorem eq_of_code {l : Literal} {n : Nat} (h : l.code? m f = some n) : n = l.char.toNat := by
  unfold Literal.code? at h
  split at h
  · exact (Option.some.inj h).symm
  · split at h
    · exact (Option.some.inj h).symm
    · split at h
      · exact (Option.some.inj h).symm
      · contradiction

mutual

/-- The sets inside brackets never touch. -/
theorem Denotes.apart {set : ClassSet} {s : CodeSet} (h : Denotes m f set s)
    (hformed : set.Formed) : s.Apart := by
  cases h with
  | empty => exact apart_empty
  | literal _ => exact apart_single (Nat.le_refl _)
  | @range first last _ _ ha hb =>
    have hle : first.char ≤ last.char := of_decide_eq_true (and_of_every hformed).1
    rw [eq_of_code ha, eq_of_code hb]
    exact apart_single hle
  | @named kind _ _ hs => exact (rising_finish (apart_namedClass kind).rising hs).apart_canonical
  | property hs => exact (rising_property hs).apart_canonical
  | letter hs => exact (rising_letter hs).apart_canonical
  | bracketed hs ht =>
    exact (rising_finish (hs.apart (and_of_every hformed).2).rising ht).apart_canonical
  | union hrs => exact apart_ofRanges (hrs.ordered (and_of_every hformed).2)
  | binary _ _ => exact apart_apply

theorem DenoteAll.ordered {items : List ClassSet} {rs : List (Nat × Nat)}
    (h : DenoteAll m f items rs) (hformed : everyItem ClassSet.isFormed items = true) :
    AllOrdered rs := by
  cases h with
  | nil => exact fun r hr => absurd hr List.not_mem_nil
  | cons hs hrs =>
    obtain ⟨hitem, hitems⟩ := and_of_every hformed
    exact List.forall_mem_append.mpr ⟨(hs.apart hitem).ordered, hrs.ordered hitems⟩

end

end FlowSafety.Pattern
