import FlowSafety.Proofs.Pattern.Choice
import FlowSafety.Proofs.Pattern.Classes

/-!
# What a search resolves a pattern to

A search resolves a pattern with the meanings of Unicode. What it then takes is what the pattern
means in ASCII, on texts of ASCII and, for patterns that are plain, on all texts. The induction is
over the pattern and carries the flags along: those of the search, and those without the one for
Unicode, which the meaning in ASCII goes by.

* `Suits` — the patterns that this is true of
* `Means` — what relates a written pattern to one in its simple form
* `Resolves.means` — one case for each kind of pattern
-/

namespace FlowSafety.Pattern

variable {text : Array Char} {beyond : Prop} {f f' : Flags} {i j : Nat}

/-! ## Sets -/

mutual

/-- The meaning of a class does not depend on the flag for Unicode. -/
theorem ClassSet.holds_ascii : ∀ set : ClassSet, set.holds f.ascii = set.holds f
  | .empty => rfl
  | .literal _ => rfl
  | .range _ _ => rfl
  | .named _ _ => rfl
  | .property _ _ => rfl
  | .letter _ _ => rfl
  | .bracketed negated set => by
    funext c
    rw [ClassSet.holds, ClassSet.holds, ClassSet.holds_ascii set]
    rfl
  | .union items => by
    funext c
    rw [ClassSet.holds, ClassSet.holds, anyHolds_ascii items]
  | .binary op left right => by
    funext c
    rw [ClassSet.holds, ClassSet.holds, ClassSet.holds_ascii left,
      ClassSet.holds_ascii right]
    rfl

theorem anyHolds_ascii : ∀ items : List ClassSet, anyHolds f.ascii items = anyHolds f items
  | [] => rfl
  | item :: items => by
    funext c
    rw [anyHolds, anyHolds, item.holds_ascii, anyHolds_ascii items]

end

theorem isDomainSet_of_regular {s : CodeSet} (hs : s.Regular) : IsDomainSet .characters s := by
  intro r hr
  obtain ⟨hordered, hfirst, hbehind⟩ := hs.pieces r hr
  have hlast : r.2 + 1 ≤ 0x110000 := hbehind.1
  exact ⟨isValidChar_of_isCut hfirst (by omega), hordered, fun h => by contradiction⟩

theorem Reads.isDomainSet {s : CodeSet} {p : Char → Bool} (h : Reads f beyond s p) :
    IsDomainSet f.domain s := by
  intro r hr
  obtain ⟨hvalid, hordered, -⟩ := isDomainSet_of_regular h.regular r hr
  refine ⟨hvalid, hordered, fun hd => ?_⟩
  have hf : f.unicode = false := by
    rw [Bool.eq_false_iff]
    intro hf
    rw [Flags.domain_of_unicode hf] at hd
    contradiction
  exact Nat.lt_succ_of_le (CodeSet.isAscii_iff.mp (h.ascii hf) r hr)

/-- The pattern of a set takes the characters that the set is for. -/
theorem Reads.takes {s : CodeSet} {p : Char → Bool} (h : Reads f beyond s p)
    (htext : ∀ c ∈ text, c.toNat < 128 ∨ beyond) :
    (Core.ofSet f.domain s).Takes text i j ↔ Over text p i j := by
  rw [takes_ofSet h.isDomainSet]
  exact over_congr fun c hc => h.contains c (htext c hc)

/-! ## Leaves -/

/-- What a dot takes. -/
theorem dot_spec {h : Core} (hdot : dot? .unicode f = some h) :
    h.IsText ∧ ∀ i j, h.Takes text i j ↔
      Over text (fun c => !(lineEnds f).contains c.toNat) i j := by
  unfold dot? at hdot
  split at hdot
  · contradiction
  · rename_i hunicode
    cases hdot
    have hf : f.unicode = true := by simpa using hunicode
    have hends : (lineEnds f).Regular := by
      unfold lineEnds
      split
      · exact CodeSet.regular_empty
      · split
        · exact CodeSet.regular_ofRanges (by decide)
        · exact CodeSet.regular_ofRanges (by decide)
    rw [Flags.domain_of_unicode hf]
    have hdomain := isDomainSet_of_regular (CodeSet.regular_compl hends)
    refine ⟨isText_ofSet hdomain, fun i j => ?_⟩
    rw [takes_ofSet hdomain]
    refine over_congr fun c _ => ?_
    rw [Bool.eq_iff_iff, CodeSet.contains_compl hends (toNat_le_last c), Bool.not_eq_true',
      Bool.eq_false_iff]

/-- The set of a literal, with the other cases. -/
theorem isDomainSet_foldCase {c : Char} (hascii : f.unicode = true ∨ c.toNat < 128) :
    IsDomainSet f.domain (CodeSet.foldCase f.domain ⟨[(c.toNat, c.toNat)]⟩) := by
  cases hf : f.unicode with
  | false =>
    rw [Flags.domain_of_not_unicode hf]
    have hlt : c.toNat < 128 := by
      rw [hf] at hascii
      simpa using hascii
    have hregular : (CodeSet.mk [(c.toNat, c.toNat)]).Regular :=
      CodeSet.regular_single (CodeSet.isPiece_of_ascii (Nat.le_refl _) hlt)
    have hisAscii : (CodeSet.mk [(c.toNat, c.toNat)]).isAscii = true :=
      CodeSet.isAscii_iff.mpr (List.forall_mem_singleton.mpr (Nat.le_of_lt_succ hlt))
    intro r hr
    obtain ⟨hvalid, hordered, -⟩ :=
      isDomainSet_of_regular (CodeSet.regular_foldCase_bytes hregular) r hr
    exact ⟨hvalid, hordered, fun _ =>
      Nat.lt_succ_of_le (CodeSet.isAscii_iff.mp (CodeSet.isAscii_foldCase hisAscii) r hr)⟩
  | true =>
    rw [Flags.domain_of_unicode hf]
    refine isDomainSet_ofRanges ?_
    rw [List.forall_mem_append]
    constructor
    · exact List.forall_mem_singleton.mpr ⟨c.valid, Nat.le_refl _, fun h => by contradiction⟩
    · intro r hr
      obtain ⟨o, ho, hr⟩ := List.mem_flatMap.mp hr
      obtain ⟨n, hn, rfl⟩ := List.mem_map.mp hr
      obtain ⟨hcut, hbehind⟩ := orbits_eval.2 o (List.mem_filter.mp ho).1 n hn
      exact ⟨isValidChar_of_isCut hcut (by have := hbehind.1; omega), Nat.le_refl n,
        fun h => by contradiction⟩

/-- A literal and the other cases of it, among characters of ASCII. -/
theorem contains_foldCase_literal {c d : Char} (hsign : c ≠ 'ſ' ∧ c ≠ '\u212A')
    (hd : d.toNat < 128) :
    (CodeSet.foldCase f.domain ⟨[(c.toNat, c.toNat)]⟩).contains d.toNat = true ↔
      d = c ∨ d.toLower = c ∨ d.toUpper = c := by
  have hsingle : ∀ {e : Char},
      (CodeSet.mk [(c.toNat, c.toNat)]).contains e.toNat = true ↔ e = c := by
    intro e
    rw [CodeSet.contains_single, eq_iff_toNat]
  have hspares : Spares fun n => (CodeSet.mk [(c.toNat, c.toNat)]).contains n = true :=
    spares_of_not_signs (fun h => hsign.1 ((hsingle (e := 'ſ')).mp h).symm)
      fun h => hsign.2 ((hsingle (e := '\u212A')).mp h).symm
  have hfold : (CodeSet.foldCase f.domain ⟨[(c.toNat, c.toNat)]⟩).contains d.toNat = true ↔
      AsciiFold (fun n => (CodeSet.mk [(c.toNat, c.toNat)]).contains n = true) d.toNat := by
    cases hf : f.unicode with
    | true =>
      rw [Flags.domain_of_unicode hf]
      exact CodeSet.contains_foldCase_ascii hspares hd
    | false =>
      rw [Flags.domain_of_not_unicode hf]
      exact CodeSet.contains_foldCase_bytes_ascii hd
  rw [hfold, asciiFold_char hd, hsingle, hsingle, hsingle]

/-- What a literal takes. -/
theorem literal_spec {l : Literal} {h : Core} (htext : ∀ c ∈ text, c.toNat < 128 ∨ beyond)
    (hcase : beyond → f.caseInsensitive = false)
    (hsign : ¬ beyond → l.char ≠ 'ſ' ∧ l.char ≠ '\u212A') (hlit : literal? .unicode f l = some h) :
    h.IsText ∧ ∀ i j, h.Takes text i j ↔ Over text (f.folded fun c => c = l.char) i j := by
  have hexact : (Core.literal (String.utf8EncodeChar l.char)).IsText :=
    ⟨[l.char], (List.flatMap_singleton ..).symm⟩
  unfold literal? at hlit
  split at hlit
  · contradiction
  · dsimp only at hlit
    split at hlit
    · rename_i hfold
      cases hlit
      simp only [Bool.and_eq_true, Bool.or_eq_true, decide_eq_true_eq] at hfold
      obtain ⟨hinsensitive, hascii⟩ := hfold
      have hbeyond : ¬ beyond := fun h => by
        rw [hcase h] at hinsensitive
        contradiction
      have hdomain := isDomainSet_foldCase hascii
      refine ⟨isText_ofSet hdomain, fun i j => ?_⟩
      rw [takes_ofSet hdomain]
      refine over_congr fun c hc => ?_
      have hlt := (htext c hc).resolve_right hbeyond
      rw [Bool.eq_iff_iff, contains_foldCase_literal (hsign hbeyond) hlt, Flags.folded,
        hinsensitive]
      simp
    · rename_i hfold
      cases hlit
      refine ⟨hexact, fun i j => ?_⟩
      rw [takes_char]
      refine over_congr fun c hc => ?_
      cases hinsensitive : f.caseInsensitive with
      | false => rw [Flags.folded, hinsensitive, Bool.false_and, Bool.or_false]
      | true =>
        simp only [hinsensitive, Bool.true_and, Bool.or_eq_true, decide_eq_true_eq, not_or] at hfold
        have hbeyond : ¬ beyond := fun h => by
          rw [hcase h] at hinsensitive
          contradiction
        have hlt := (htext c hc).resolve_right hbeyond
        have hne : ∀ d : Char, d.toNat < 128 → d ≠ l.char := fun d hd h => hfold.2 (h ▸ hd)
        obtain ⟨hlower, hupper⟩ := toNat_cases_lt hlt
        simp [Flags.folded, hne c hlt, hne _ hlower, hne _ hupper]

/-- What an assertion says where it is one of ASCII. -/
theorem holdsAt_look {a : Assertion} (htext : ∀ c ∈ text, c.toNat < 128 ∨ beyond)
    (hplain : beyond → ∀ condition, a ≠ .word condition) :
    (look f a).holdsAt text i = (look f.ascii a).holdsAt text i := by
  have htouches : ∀ condition, a = .word condition → ∀ (i : Nat),
      touchesWord f.unicode text[i]? = touchesWord false text[i]? := by
    rintro condition rfl i
    cases hc : text[i]? with
    | none => rfl
    | some c =>
      have hlt := (htext c (Array.mem_of_getElem? hc)).resolve_right
        fun h => hplain h condition rfl
      cases hf : f.unicode with
      | false => rfl
      | true =>
        simp only [touchesWord, isWordChar, if_true, Unicode.isWord, if_pos hlt]
        rfl
  cases a with
  | word condition =>
    simp only [look, Look.holdsAt, Look.holdsBetween, htouches condition rfl, Flags.ascii]
    split
    · rfl
    · rw [htouches condition rfl]
  | _ => rfl

/-! ## Patterns -/

/-- A part of a pattern that a search and a meaning in ASCII can agree on: no property, and a
repetition whose bounds are in order. -/
def Ast.isReadable : Ast → Bool
  | .property _ _ => false
  | .repetition min (some max) _ _ => min ≤ max
  | _ => true

/-- The patterns whose meaning in ASCII a search of some texts finds. The texts are of ASCII, unless
`beyond` holds. -/
structure Suits (beyond : Prop) (ast : Ast) : Prop where
  readable : ast.every Ast.isReadable ClassSet.isLatin = true
  signs : ¬ beyond → ast.every Ast.isNoSign (fun _ => true) = true
  plain : beyond → ast.every Ast.isPlainPart ClassSet.isNoLetter = true

/-- The same for some patterns. -/
structure SuitAll (beyond : Prop) (items : List Ast) : Prop where
  readable : everyPart Ast.isReadable ClassSet.isLatin items = true
  signs : ¬ beyond → everyPart Ast.isNoSign (fun _ => true) items = true
  plain : beyond → everyPart Ast.isPlainPart ClassSet.isNoLetter items = true

theorem Suits.group {kind : GroupKind} {sub : Ast} (h : Suits beyond (.group kind sub)) :
    Suits beyond sub :=
  ⟨(and_of_every h.readable).2, fun hb => (and_of_every (h.signs hb)).2,
    fun hb => (and_of_every (h.plain hb)).2⟩

theorem Suits.repetition {min : Nat} {max : Option Nat} {greedy : Bool} {sub : Ast}
    (h : Suits beyond (.repetition min max greedy sub)) :
    (∀ m, max = some m → min ≤ m) ∧ Suits beyond sub := by
  refine ⟨?_, (and_of_every h.readable).2, fun hb => (and_of_every (h.signs hb)).2,
    fun hb => (and_of_every (h.plain hb)).2⟩
  rintro m rfl
  exact of_decide_eq_true (and_of_every h.readable).1

theorem Suits.alternation {branches : List Ast} (h : Suits beyond (.alternation branches)) :
    SuitAll beyond branches :=
  ⟨(and_of_every h.readable).2, fun hb => (and_of_every (h.signs hb)).2,
    fun hb => (and_of_every (h.plain hb)).2⟩

theorem Suits.concat {items : List Ast} (h : Suits beyond (.concat items)) :
    SuitAll beyond items :=
  ⟨(and_of_every h.readable).2, fun hb => (and_of_every (h.signs hb)).2,
    fun hb => (and_of_every (h.plain hb)).2⟩

theorem SuitAll.cons {item : Ast} {items : List Ast} (h : SuitAll beyond (item :: items)) :
    Suits beyond item ∧ SuitAll beyond items :=
  ⟨⟨(and_of_every h.readable).1, fun hb => (and_of_every (h.signs hb)).1,
      fun hb => (and_of_every (h.plain hb)).1⟩,
    ⟨(and_of_every h.readable).2, fun hb => (and_of_every (h.signs hb)).2,
      fun hb => (and_of_every (h.plain hb)).2⟩⟩

/-- A pattern in its simple form takes what a written pattern means in ASCII, and the flags behind
both agree. -/
structure Means (text : Array Char) (beyond : Prop) (ast : Ast) (f : Flags) (h : Core)
    (f' : Flags) : Prop where
  isText : h.IsText
  takes : ∀ i j, h.Takes text i j ↔ ast.Takes text False f.ascii i j
  behind : f'.ascii = ast.flagsBehind f.ascii
  counts : beyond → f'.caseInsensitive = false

/-- The same for some patterns, as alternatives and in a row. -/
structure MeanAll (text : Array Char) (beyond : Prop) (items : List Ast) (f : Flags)
    (hs : List Core) (f' : Flags) : Prop where
  areText : AreText hs
  any : ∀ i j, TakesOne text hs i j ↔ TakesAny text False items f.ascii i j
  row : ∀ i j, TakesAll text hs i j ↔ TakesRow text False items f.ascii i j
  behind : f'.ascii = flagsBehindAll f.ascii items
  counts : beyond → f'.caseInsensitive = false

/-- A flag that is not set stays off. -/
theorem FlagChange.apply_off {change : FlagChange} {flag : Flag}
    (h : (!change.set.contains flag) = true) : change.apply flag false = false := by
  rw [apply, if_neg (by simpa using h)]
  split <;> rfl

theorem counts_change {change : FlagChange} (hcase : f.caseInsensitive = false)
    (h : (!change.set.contains Flag.caseInsensitive) = true) :
    (f.change change).caseInsensitive = false :=
  hcase ▸ FlagChange.apply_off h

theorem repeats_congr {r r' : Nat → Nat → Prop} (h : ∀ i j, r i j ↔ r' i j) {min : Nat}
    {max : Option Nat} :
    Repeats r min max i j ↔ Repeats r' min max i j := by
  simp only [Repeats, Iter.congr h]

mutual

/-- What a search resolves a pattern to takes what the pattern means in ASCII. -/
theorem Resolves.means {ast : Ast} {f f' : Flags} {h : Core} (hr : Resolves .unicode f ast h f')
    (htext : ∀ c ∈ text, c.toNat < 128 ∨ beyond) (hsuits : Suits beyond ast)
    (hcase : beyond → f.caseInsensitive = false) : Means text beyond ast f h f' := by
  cases hr with
  | empty => exact ⟨trivial, fun _ _ => Iff.rfl, rfl, hcase⟩
  | flags =>
    exact ⟨trivial, fun _ _ => Iff.rfl, rfl, fun hb => counts_change (hcase hb) (hsuits.plain hb)⟩
  | @literal _ l _ hliteral =>
    have hsign : ¬ beyond → l.char ≠ 'ſ' ∧ l.char ≠ '\u212A' := fun hb => by
      simpa [Ast.every, Ast.isNoSign] using hsuits.signs hb
    obtain ⟨htext, htakes⟩ := literal_spec htext hcase hsign hliteral
    exact ⟨htext, htakes, rfl, hcase⟩
  | dot hdot =>
    obtain ⟨htext, htakes⟩ := @dot_spec text _ _ hdot
    exact ⟨htext, htakes, rfl, hcase⟩
  | @assertion _ a =>
    have hplain : beyond → ∀ condition, a ≠ .word condition := by
      rintro hb condition rfl
      exact absurd (hsuits.plain hb) Bool.false_ne_true
    refine ⟨trivial, fun i j => ?_, rfl, hcase⟩
    rw [Core.Takes, Ast.Takes, holdsAt_look htext hplain]
    simp
  | property _ => exact absurd hsuits.readable Bool.false_ne_true
  | letter hs =>
    have hreads := @reads_letter _ beyond _ _ _
      (fun hb => absurd (hsuits.plain hb) Bool.false_ne_true) hs
    exact ⟨isText_ofSet hreads.isDomainSet, fun i j => hreads.takes htext, rfl, hcase⟩
  | bracketed hs ht =>
    have hreads := (hs.reads hcase (and_of_every hsuits.readable).2
      fun hb => (and_of_every (hsuits.plain hb)).2).finish hcase ht
    refine ⟨isText_ofSet hreads.isDomainSet, fun i j => ?_, rfl, hcase⟩
    rw [hreads.takes htext, Ast.Takes, ClassSet.holds_ascii]
    rfl
  | repetition hsub =>
    obtain ⟨hbounds, hsuits⟩ := hsuits.repetition
    obtain ⟨hisText, htakes, hbehind, hcounts⟩ := hsub.means htext hsuits hcase
    refine ⟨isText_repeated hbounds hisText, fun i j => ?_, hbehind, hcounts⟩
    rw [takes_repeated hbounds hisText]
    exact repeats_congr htakes
  | capture hsub =>
    obtain ⟨hisText, htakes, -, -⟩ := hsub.means htext hsuits.group hcase
    exact ⟨hisText, htakes, rfl, hcase⟩
  | plain hsub =>
    have hinside := fun hb => counts_change (hcase hb) (and_of_every (hsuits.plain hb)).1
    obtain ⟨hisText, htakes, -, -⟩ := hsub.means htext hsuits.group hinside
    exact ⟨hisText, htakes, rfl, hcase⟩
  | alternation hbranches =>
    obtain ⟨htexts, hany, -, hbehind, hcounts⟩ := hbranches.means htext hsuits.alternation hcase
    obtain ⟨hisText, htakes⟩ := @oneOf_spec text _ htexts
    exact ⟨hisText, fun i j => (htakes i j).trans (hany i j), hbehind, hcounts⟩
  | concat hitems =>
    obtain ⟨htexts, -, hrow, hbehind, hcounts⟩ := hitems.means htext hsuits.concat hcase
    obtain ⟨hisText, htakes⟩ := @inRow_spec text _ htexts
    exact ⟨hisText, fun i j => (htakes i j).trans (hrow i j), hbehind, hcounts⟩

theorem ResolveAll.means {items : List Ast} {f f' : Flags} {hs : List Core}
    (hr : ResolveAll .unicode f items hs f') (htext : ∀ c ∈ text, c.toNat < 128 ∨ beyond)
    (hsuits : SuitAll beyond items) (hcase : beyond → f.caseInsensitive = false) :
    MeanAll text beyond items f hs f' := by
  cases hr with
  | nil => exact ⟨trivial, fun _ _ => Iff.rfl, fun _ _ => Iff.rfl, rfl, hcase⟩
  | cons hitem hitems =>
    obtain ⟨hsuit, hsuits⟩ := hsuits.cons
    obtain ⟨hfirst, htakes, hbetween, hcounts⟩ := hitem.means htext hsuit hcase
    obtain ⟨hrest, hany, hrow, hbehind, hcounts⟩ := hitems.means htext hsuits hcounts
    refine ⟨⟨hfirst, hrest⟩, fun i j => ?_, fun i j => ?_, ?_, hcounts⟩
    · rw [TakesOne, TakesAny, htakes, hany, hbetween]
    · simp only [TakesAll, TakesRow, htakes, hrow, hbetween]
    · rw [hbehind, hbetween, flagsBehindAll]

end

end FlowSafety.Pattern
