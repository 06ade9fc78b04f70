import FlowSafety.Proofs.Pattern.Ascii
import FlowSafety.Proofs.Pattern.Case
import FlowSafety.Proofs.Pattern.Resolution

/-!
# Classes in a search

A search reads a class as a set of characters of Unicode. On ASCII this set holds the characters
that the class means in ASCII: class letters agree there, and folding adds the long s and the Kelvin
sign only together with their letters. Where case counts and no class letter occurs the two agree on
all characters.

* `Reads` — what relates the set of a class to its meaning
* `ClassOp.contains_apply` — the members that an operation leaves
* `Reads.finish` — folding and turning around
* `Denotes.reads` — every class, by induction
-/

namespace FlowSafety.Pattern

variable {f : Flags} {beyond : Prop} {s t : CodeSet} {p q : Char → Bool}

theorem toNat_le_last (c : Char) : c.toNat ≤ 0x10FFFF := by
  have h := c.valid
  unfold UInt32.isValidChar Nat.isValidChar at h
  exact (by omega : c.val.toNat ≤ 0x10FFFF)

/-! ## Sets and tests -/

/-- A set holds the ASCII characters that pass a test, and the other ones if `beyond` holds. -/
structure Reads (f : Flags) (beyond : Prop) (s : CodeSet) (p : Char → Bool) : Prop where
  regular : s.Regular
  ascii : f.unicode = false → s.isAscii = true
  spares : f.caseInsensitive = true → Spares fun n => s.contains n = true
  contains : ∀ c : Char, c.toNat < 128 ∨ beyond → s.contains c.toNat = p c

theorem Flags.domain_of_unicode (h : f.unicode = true) : f.domain = .characters := by
  rw [domain, if_pos h]

theorem Flags.domain_of_not_unicode (h : f.unicode = false) : f.domain = .bytes := by
  rw [domain, h]
  rfl

theorem CodeSet.isAscii_iff_contains (hs : s.Regular) :
    s.isAscii = true ↔ ∀ n, s.contains n = true → n < 128 := by
  rw [isAscii_iff]
  constructor
  · intro h n hn
    obtain ⟨r, hr, -, hle⟩ := contains_iff.mp hn
    have := h r hr
    omega
  · intro h r hr
    have := h r.2 (contains_iff.mpr ⟨r, hr, (hs.pieces r hr).ordered, Nat.le_refl _⟩)
    omega

/-- Among bytes what is not in a set of ASCII characters is not ASCII. -/
theorem CodeSet.not_isAscii_compl (hs : s.isAscii = true) : (s.compl .bytes).isAscii = false := by
  have hgaps : ∀ {rs : List (Nat × Nat)} {hi : Nat}, hi ≤ 0x7F → (∀ r ∈ rs, r.2 ≤ 0x7F) →
      ∃ r ∈ gapsAfter .bytes hi rs, ¬ r.2 ≤ 0x7F := by
    intro rs
    induction rs with
    | nil =>
      intro hi hhi _
      rw [gapsAfter, if_pos (show hi < Domain.bytes.last from Nat.lt_of_le_of_lt hhi (by decide))]
      exact ⟨_, List.mem_singleton_self _, show ¬ 0xFF ≤ 0x7F by decide⟩
    | cons r rs ih =>
      intro hi _ hrs
      obtain ⟨hr, hrest⟩ := List.forall_mem_cons.mp hrs
      obtain ⟨t, ht, hlt⟩ := ih hr hrest
      exact ⟨t, List.mem_cons_of_mem _ ht, hlt⟩
  have hcompl : ∃ r ∈ (s.compl .bytes).ranges, ¬ r.2 ≤ 0x7F := by
    obtain ⟨rs⟩ := s
    cases rs with
    | nil => exact ⟨(0, 0xFF), List.mem_singleton_self _, by decide⟩
    | cons r rs =>
      obtain ⟨hr, hrest⟩ := List.forall_mem_cons.mp (isAscii_iff.mp hs)
      obtain ⟨t, ht, hlt⟩ := hgaps hr hrest
      exact ⟨t, List.mem_append_right _ ht, hlt⟩
  obtain ⟨r, hr, hlt⟩ := hcompl
  rw [Bool.eq_false_iff]
  intro h
  exact hlt (isAscii_iff.mp h r hr)

theorem spares_of_isAscii (hs : s.Regular) (h : s.isAscii = true) :
    Spares fun n => s.contains n = true := by
  have hlt := (CodeSet.isAscii_iff_contains hs).mp h
  refine spares_of_not_signs ?_ ?_
  · intro hsign
    exact absurd (hlt _ hsign) (by decide)
  · intro hsign
    exact absurd (hlt _ hsign) (by decide)

/-- A set that may stand in a pattern is not changed. -/
theorem eq_of_allowed {m : Mode} {d : Domain}
    (h : (if m.allows d s then some s else none) = some t) :
    m.allows d s = true ∧ s = t := by
  split at h
  · rename_i hallows
    exact ⟨hallows, Option.some.inj h⟩
  · contradiction

/-! ## Folding -/

theorem CodeSet.regular_foldCase (hs : s.Regular) : ∀ d : Domain, (s.foldCase d).Regular
  | .characters => regular_foldCase_characters hs
  | .bytes => regular_foldCase_bytes hs

theorem regular_foldedSet (hs : s.Regular) : (foldedSet f s).Regular := by
  unfold foldedSet
  split
  · exact CodeSet.regular_foldCase hs f.domain
  · exact hs

theorem isAscii_foldedSet (hf : f.unicode = false) (hs : s.isAscii = true) :
    (foldedSet f s).isAscii = true := by
  unfold foldedSet
  rw [Flags.domain_of_not_unicode hf]
  split
  · exact CodeSet.isAscii_foldCase hs
  · exact hs

/-- Among characters a folded set is closed. -/
theorem caseClosed_foldedSet (hcase : f.caseInsensitive = true) (hf : f.unicode = true) :
    CaseClosed fun n => (foldedSet f s).contains n = true := by
  rw [foldedSet, if_pos hcase, Flags.domain_of_unicode hf]
  exact s.caseClosed_foldCase

/-! ## Set operations -/

namespace ClassOp

variable {d : Domain} {op : ClassOp}

theorem regular_apply (hs : s.Regular) (ht : t.Regular) : (op.apply d s t).Regular := by
  cases op with
  | inter => exact CodeSet.regular_inter hs ht
  | diff => exact CodeSet.regular_diff hs ht
  | symmDiff => exact CodeSet.regular_symmDiff hs ht

theorem contains_apply (hs : s.Regular) (ht : t.Regular) {n : Nat} :
    (op.apply d s t).contains n = op.holds (s.contains n) (t.contains n) := by
  rw [Bool.eq_iff_iff]
  cases op with
  | inter => simp [apply, CodeSet.contains_inter, holds]
  | diff => simp [apply, CodeSet.contains_diff hs ht, holds]
  | symmDiff =>
    simp only [apply, CodeSet.contains_symmDiff hs ht, holds]
    cases s.contains n <;> cases t.contains n <;> simp

/-- An operation adds no members. -/
theorem or_of_holds {a b : Bool} (h : op.holds a b = true) : a = true ∨ b = true := by
  cases a with
  | true => exact .inl rfl
  | false =>
    cases b with
    | true => exact .inr rfl
    | false => cases op <;> contradiction

theorem caseClosed_holds {a b : Nat → Bool} (ha : CaseClosed fun n => a n = true)
    (hb : CaseClosed fun n => b n = true) : CaseClosed fun n => op.holds (a n) (b n) = true := by
  cases op with
  | inter =>
    simp only [holds, Bool.and_eq_true]
    exact ha.and hb
  | diff =>
    simp only [holds, Bool.and_eq_true, Bool.not_eq_true', Bool.eq_false_iff]
    exact ha.and hb.not
  | symmDiff =>
    refine ((ha.and hb.not).or (ha.not.and hb)).congr ?_
    intro n _
    simp only [holds]
    cases a n <;> cases b n <;> simp

end ClassOp

namespace Reads

theorem congr (h : Reads f beyond s p) (hpq : ∀ c, p c = q c) : Reads f beyond s q :=
  { h with contains := fun c hc => (h.contains c hc).trans (hpq c) }

/-! ## Brackets -/

theorem contains_foldCase (h : Reads f beyond s p) (hcase : f.caseInsensitive = true) {n : Nat}
    (hn : n < 128) :
    (s.foldCase f.domain).contains n = true ↔ AsciiFold (fun n => s.contains n = true) n := by
  cases hf : f.unicode with
  | true =>
    rw [Flags.domain_of_unicode hf]
    exact CodeSet.contains_foldCase_ascii (h.spares hcase) hn
  | false =>
    rw [Flags.domain_of_not_unicode hf]
    exact CodeSet.contains_foldCase_bytes_ascii hn

/-- On ASCII the folded set holds the characters that pass the folded test. -/
theorem contains_foldedSet (h : Reads f beyond s p) {c : Char}
    (hc : f.caseInsensitive = true → c.toNat < 128) (hc' : c.toNat < 128 ∨ beyond) :
    (foldedSet f s).contains c.toNat = f.folded p c := by
  unfold foldedSet
  split
  · rename_i hcase
    have hc := hc hcase
    obtain ⟨hlower, hupper⟩ := toNat_cases_lt hc
    rw [Bool.eq_iff_iff, h.contains_foldCase hcase hc, asciiFold_char hc,
      h.contains c (.inl hc), h.contains _ (.inl hlower),
      h.contains _ (.inl hupper), Flags.folded, hcase]
    simp
  · rename_i hcase
    rw [h.contains c hc', Flags.folded, Bool.eq_false_iff.mpr hcase, Bool.false_and, Bool.or_false]

theorem fold (h : Reads f beyond s p) (hbeyond : beyond → f.caseInsensitive = false) :
    Reads f beyond (foldedSet f s) (f.folded p) := by
  have hregular : (foldedSet f s).Regular := regular_foldedSet h.regular
  have hascii := fun hf => isAscii_foldedSet (f := f) hf (h.ascii hf)
  refine ⟨hregular, hascii, fun hcase => ?_, fun c hc => h.contains_foldedSet (fun hcase => ?_) hc⟩
  · cases hf : f.unicode with
    | true => exact (caseClosed_foldedSet hcase hf).spares
    | false => exact spares_of_isAscii hregular (hascii hf)
  · refine hc.resolve_right fun hb => ?_
    rw [hbeyond hb] at hcase
    contradiction

/-- A set that may be turned around, if case has been folded. -/
theorem turn {negated : Bool} (h : Reads f beyond s p)
    (hclosed : f.caseInsensitive = true → f.unicode = true →
      CaseClosed fun n => s.contains n = true)
    (hallows : Mode.unicode.allows f.domain (if negated then s.compl f.domain else s) = true) :
    Reads f beyond (if negated then s.compl f.domain else s) fun c => p c != negated := by
  cases negated with
  | false => exact h.congr fun c => (Bool.bne_false (p c)).symm
  | true =>
    rw [if_pos rfl] at hallows ⊢
    cases hf : f.unicode with
    | false =>
      rw [Flags.domain_of_not_unicode hf] at hallows
      have hascii := h.ascii hf
      simp [Mode.allows, CodeSet.not_isAscii_compl hascii] at hallows
    | true =>
      rw [Flags.domain_of_unicode hf]
      have hmem : ∀ n ≤ 0x10FFFF, ¬ s.contains n = true ↔
          (s.compl .characters).contains n = true :=
        fun n hn => (CodeSet.contains_compl h.regular hn).symm
      refine ⟨CodeSet.regular_compl h.regular, ?_, ?_, ?_⟩
      · intro hf'
        rw [hf] at hf'
        contradiction
      · intro hcase
        exact ((hclosed hcase hf).not.congr hmem).spares
      · intro c hc
        rw [Bool.eq_iff_iff, ← hmem c.toNat (toNat_le_last c), h.contains c hc]
        simp

/-- What becomes of the inside of a bracket. -/
theorem finish {negated : Bool} (h : Reads f beyond s p)
    (hbeyond : beyond → f.caseInsensitive = false)
    (hfinish : finish? .unicode f negated s = some t) :
    Reads f beyond t fun c => f.folded p c != negated := by
  obtain ⟨hallows, rfl⟩ := eq_of_allowed hfinish
  exact (h.fold hbeyond).turn caseClosed_foldedSet hallows

/-! ## Items and operations -/

theorem canonical (h : Reads f beyond s p) : Reads f beyond s.canonical p := by
  refine ⟨CodeSet.regular_canonical h.regular, ?_, ?_, ?_⟩
  · intro hf
    exact CodeSet.isAscii_ofRanges (CodeSet.isAscii_iff.mp (h.ascii hf))
  · intro hcase
    simp only [CodeSet.contains_canonical]
    exact h.spares hcase
  · intro c hc
    rw [Bool.eq_iff_iff, CodeSet.contains_canonical, h.contains c hc]

theorem ofRanges_append {rs : List (Nat × Nat)} (hrs : ∀ r ∈ rs, IsPiece r)
    (h : Reads f beyond s p) (h' : Reads f beyond (.ofRanges rs) q) :
    Reads f beyond (.ofRanges (s.ranges ++ rs)) fun c => p c || q c := by
  have hcontains : ∀ n, (CodeSet.ofRanges (s.ranges ++ rs)).contains n = true ↔
      s.contains n = true ∨ (CodeSet.ofRanges rs).contains n = true := by
    intro n
    rw [CodeSet.contains_ofRanges, covered_append, CodeSet.contains_ofRanges, CodeSet.contains_iff]
  have hregular : (CodeSet.ofRanges (s.ranges ++ rs)).Regular := by
    refine CodeSet.regular_ofRanges ?_
    rw [List.forall_mem_append]
    exact ⟨h.regular.pieces, hrs⟩
  refine ⟨hregular, ?_, ?_, ?_⟩
  · intro hf
    rw [CodeSet.isAscii_iff_contains hregular]
    intro n hn
    rcases (hcontains n).mp hn with hn | hn
    · exact (CodeSet.isAscii_iff_contains h.regular).mp (h.ascii hf) n hn
    · exact (CodeSet.isAscii_iff_contains h'.regular).mp (h'.ascii hf) n hn
  · intro hcase
    simp only [hcontains]
    exact (h.spares hcase).or (h'.spares hcase)
  · intro c hc
    rw [Bool.eq_iff_iff, hcontains, h.contains c hc, h'.contains c hc, Bool.or_eq_true]

/-- An operation on two sets that are closed under case, if it does not count. -/
theorem binary {op : ClassOp} (h : Reads f beyond s p) (h' : Reads f beyond t q)
    (hclosed : f.caseInsensitive = true → f.unicode = true →
      CaseClosed fun n => s.contains n = true)
    (hclosed' : f.caseInsensitive = true → f.unicode = true →
      CaseClosed fun n => t.contains n = true) :
    Reads f beyond (op.apply f.domain s t) fun c => op.holds (p c) (q c) := by
  have hregular : (op.apply f.domain s t).Regular := op.regular_apply h.regular h'.regular
  have hcontains : ∀ n, (op.apply f.domain s t).contains n =
      op.holds (s.contains n) (t.contains n) :=
    fun _ => op.contains_apply h.regular h'.regular
  have hascii : f.unicode = false → (op.apply f.domain s t).isAscii = true := by
    intro hf
    rw [CodeSet.isAscii_iff_contains hregular]
    intro n hn
    rw [hcontains] at hn
    rcases op.or_of_holds hn with hn | hn
    · exact (CodeSet.isAscii_iff_contains h.regular).mp (h.ascii hf) n hn
    · exact (CodeSet.isAscii_iff_contains h'.regular).mp (h'.ascii hf) n hn
  refine ⟨hregular, hascii, fun hcase => ?_, fun c hc => ?_⟩
  · cases hf : f.unicode with
    | false => exact spares_of_isAscii hregular (hascii hf)
    | true =>
      simp only [hcontains]
      exact (op.caseClosed_holds (hclosed hcase hf) (hclosed' hcase hf)).spares
  · rw [hcontains, h.contains c hc, h'.contains c hc]

end Reads

/-! ## Leaves -/

/-- What the inside of a class holds if it is read in ASCII: no property, and no character that
takes more than a byte. -/
def ClassSet.isLatin : ClassSet → Bool
  | .property _ _ => false
  | .literal l => l.char.toNat < 0x100
  | .range first last => first.char ≤ last.char && last.char.toNat < 0x100
  | _ => true

theorem code_eq {l : Literal} {n : Nat} (h : l.code? .unicode f = some n) :
    n = l.char.toNat ∧ (f.unicode = false → n < 128) := by
  unfold Literal.code? at h
  split at h
  · rename_i hf
    cases h
    exact ⟨rfl, fun hf' => by rw [hf] at hf'; contradiction⟩
  · split at h
    · rename_i hlt
      cases h
      exact ⟨rfl, fun _ => hlt⟩
    · simp at h

/-- The set of a range of codes of one byte. -/
theorem reads_range {lo hi : Nat} (hle : lo ≤ hi) (hhi : hi < 0x100)
    (hascii : f.unicode = false → hi < 128)
    (hp : ∀ c : Char, p c = true ↔ lo ≤ c.toNat ∧ c.toNat ≤ hi) :
    Reads f beyond ⟨[(lo, hi)]⟩ p := by
  have hregular : (CodeSet.mk [(lo, hi)]).Regular := by
    refine CodeSet.regular_single ⟨hle, ?_, ?_⟩
    · simp only [IsCut]
      omega
    · simp only [IsCut]
      omega
  refine ⟨hregular, ?_, ?_, ?_⟩
  · intro hf
    rw [CodeSet.isAscii_iff_contains hregular]
    intro n hn
    have := CodeSet.contains_single.mp hn
    have := hascii hf
    omega
  · intro _
    refine spares_of_not_signs ?_ ?_
    · rw [CodeSet.contains_single]
      omega
    · rw [CodeSet.contains_single]
      omega
  · intro c _
    rw [Bool.eq_iff_iff, CodeSet.contains_single, hp]

theorem reads_named (k : NamedClass) : Reads f beyond k.set fun c => k.set.contains c.toNat := by
  have hascii : k.set.isAscii = true := by
    refine CodeSet.isAscii_ofRanges ?_
    cases k <;> decide
  exact ⟨k.regular_set, fun _ => hascii, fun _ => spares_of_isAscii k.regular_set hascii,
    fun _ _ => rfl⟩

theorem reads_letter {k : LetterClass} {negated : Bool} (hbeyond : ¬ beyond)
    (h : letterSet? .unicode f k negated = some s) :
    Reads f beyond s ((ClassSet.letter k negated).holds f) := by
  obtain ⟨hallows, rfl⟩ := eq_of_allowed h
  refine Reads.turn ?_ ?_ hallows
  · cases hf : f.unicode with
    | true =>
      refine ⟨k.regular_characters, fun hf' => ?_, fun _ => k.caseClosed_characters.spares, ?_⟩
      · rw [hf] at hf'
        contradiction
      · rintro c (hc | hc)
        · rw [Bool.eq_iff_iff]
          exact LetterClass.contains_characters hc
        · exact absurd hc hbeyond
    | false =>
      have hascii : k.ascii.isAscii = true := by
        cases k <;> exact CodeSet.isAscii_ofRanges (by decide)
      exact ⟨k.regular_ascii, fun _ => hascii, fun _ => spares_of_isAscii k.regular_ascii hascii,
        fun _ _ => rfl⟩
  · intro _ hf
    rw [if_pos hf]
    exact k.caseClosed_characters

theorem reads_empty : Reads f beyond .empty fun _ => false :=
  ⟨CodeSet.regular_empty, fun _ => rfl, fun _ => spares_of_not_signs (by decide) (by decide),
    fun _ _ => rfl⟩

/-! ## Classes -/

theorem toNat_le_iff {c d : Char} : c ≤ d ↔ c.toNat ≤ d.toNat := Iff.rfl

theorem eq_iff_toNat {c d : Char} : c = d ↔ d.toNat ≤ c.toNat ∧ c.toNat ≤ d.toNat := by
  rw [← Char.toNat_inj]
  omega

theorem and_of_every {a b : Bool} (h : (a && b) = true) : a = true ∧ b = true := by
  rwa [Bool.and_eq_true] at h

theorem CodeSet.ofRanges_nil : ofRanges [] = empty := by
  rw [ofRanges, List.mergeSort_nil]
  rfl

mutual

/-- The set of a class holds what the class means in ASCII. -/
theorem Denotes.reads {set : ClassSet} {s : CodeSet} (h : Denotes .unicode f set s)
    (hcase : beyond → f.caseInsensitive = false) (hlatin : set.every ClassSet.isLatin = true)
    (hletter : beyond → set.every ClassSet.isNoLetter = true) : Reads f beyond s (set.holds f) := by
  cases h with
  | empty => exact reads_empty
  | literal hn =>
    obtain ⟨rfl, hascii⟩ := code_eq hn
    refine reads_range (Nat.le_refl _) (of_decide_eq_true hlatin) hascii ?_
    intro c
    rw [ClassSet.holds, decide_eq_true_eq, eq_iff_toNat]
  | range ha hb =>
    obtain ⟨rfl, -⟩ := code_eq ha
    obtain ⟨rfl, hascii⟩ := code_eq hb
    obtain ⟨hle, hlt⟩ := and_of_every hlatin
    refine reads_range (of_decide_eq_true hle) (of_decide_eq_true hlt) hascii ?_
    intro c
    rw [ClassSet.holds, Bool.and_eq_true, decide_eq_true_eq, decide_eq_true_eq, toNat_le_iff,
      toNat_le_iff]
  | @named kind _ _ hs => exact ((reads_named kind).finish hcase hs).canonical
  | property _ => contradiction
  | letter hs =>
    have hbeyond : ¬ beyond := fun hbeyond => absurd (hletter hbeyond) Bool.false_ne_true
    exact (reads_letter hbeyond hs).canonical
  | bracketed hs ht =>
    have hset := hs.reads hcase (and_of_every hlatin).2
      fun hbeyond => (and_of_every (hletter hbeyond)).2
    exact (hset.finish hcase ht).canonical
  | union hrs =>
    exact (hrs.reads hcase (and_of_every hlatin).2
      fun hbeyond => (and_of_every (hletter hbeyond)).2).2
  | binary hs ht =>
    obtain ⟨hlatin, hlatin'⟩ := and_of_every (and_of_every hlatin).2
    have hletters := fun hbeyond => and_of_every (and_of_every (hletter hbeyond)).2
    have hleft := hs.reads hcase hlatin fun hbeyond => (hletters hbeyond).1
    have hright := ht.reads hcase hlatin' fun hbeyond => (hletters hbeyond).2
    exact (hleft.fold hcase).binary (hright.fold hcase) caseClosed_foldedSet caseClosed_foldedSet

/-- The ranges of the items of a class, together. -/
theorem DenoteAll.reads {items : List ClassSet} {rs : List (Nat × Nat)}
    (h : DenoteAll .unicode f items rs) (hcase : beyond → f.caseInsensitive = false)
    (hlatin : everyItem ClassSet.isLatin items = true)
    (hletter : beyond → everyItem ClassSet.isNoLetter items = true) :
    (∀ r ∈ rs, IsPiece r) ∧ Reads f beyond (.ofRanges rs) (anyHolds f items) := by
  cases h with
  | nil =>
    rw [CodeSet.ofRanges_nil]
    exact ⟨fun r hr => (List.not_mem_nil hr).elim, reads_empty⟩
  | cons hs hrs =>
    obtain ⟨hlatin, hlatin'⟩ := and_of_every hlatin
    have hletters := fun hbeyond => and_of_every (hletter hbeyond)
    have hitem := hs.reads hcase hlatin fun hbeyond => (hletters hbeyond).1
    obtain ⟨hpieces, hitems⟩ := hrs.reads hcase hlatin' fun hbeyond => (hletters hbeyond).2
    exact ⟨List.forall_mem_append.mpr ⟨hitem.regular.pieces, hpieces⟩,
      hitem.ofRanges_append hpieces hitems⟩

end

end FlowSafety.Pattern
