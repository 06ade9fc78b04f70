import FlowSafety.Proofs.Charset.CharClass
import FlowSafety.Proofs.Pattern.Tables

/-!
# Folding case

With regard to no case a set holds with a letter the other letter, and among characters also the
long s or the Kelvin sign. A search in ASCII does not notice these two, unless a set holds the sign
and none of its letters: `Spares` says that this is not so. Sets that are folded are `CaseClosed`,
and so are their complements, intersections and differences.

* `CodeSet.caseClosed_foldCase`, `caseClosed_characters` — what is closed
* `CodeSet.contains_foldCase_ascii` — folding as a change of letters of ASCII
-/

namespace FlowSafety.Pattern

open Unicode

/-! ## Letters and signs -/

/-- What holds of a letter holds of everything that differs from it only in case. -/
def CaseClosed (p : Nat → Prop) : Prop := ∀ o ∈ asciiOrbits, ∀ m ∈ o, ∀ n ∈ o, p m → p n

/-- What holds of a sign holds of a letter of ASCII that differs from it only in case. -/
def Spares (p : Nat → Prop) : Prop := ∀ o ∈ asciiOrbits, ∀ m ∈ o, p m → ∃ n ∈ o, n < 128 ∧ p n

/-- A code is that of the letter or one that differs from it only in case, within ASCII. -/
def AsciiFold (p : Nat → Prop) (n : Nat) : Prop :=
  p n ∨ ∃ o ∈ asciiOrbits, n ∈ o ∧ ∃ m ∈ o, m < 128 ∧ p m

theorem isWatched_of_mem : ∀ o ∈ asciiOrbits, ∀ n ∈ o, isWatched n = true := by decide

theorem le_of_mem_asciiOrbits : ∀ o ∈ asciiOrbits, ∀ n ∈ o, n ≤ 0x10FFFF := by decide

theorem ascii_mem_of_asciiOrbits : ∀ o ∈ asciiOrbits, ∃ n ∈ o, n < 128 := by decide

/-- Every letter is in one set only. -/
theorem eq_of_mem_asciiOrbits :
    ∀ o ∈ asciiOrbits, ∀ o' ∈ asciiOrbits, ∀ n ∈ o, n ∈ o' → o = o' := by decide

theorem mem_asciiOrbits_iff {o : List Nat} :
    o ∈ asciiOrbits ↔ o ∈ Fold.orbits ∧ ∃ n ∈ o, isWatched n = true := by
  rw [← orbits_eval.1, List.mem_filter, List.any_eq_true]

variable {p q : Nat → Prop}

theorem CaseClosed.spares (h : CaseClosed p) : Spares p := by
  intro o ho m hm hp
  obtain ⟨n, hn, hascii⟩ := ascii_mem_of_asciiOrbits o ho
  exact ⟨n, hn, hascii, h o ho m hm n hn hp⟩

theorem CaseClosed.not (h : CaseClosed p) : CaseClosed fun n => ¬ p n :=
  fun o ho m hm n hn hp hp' => hp (h o ho n hn m hm hp')

theorem CaseClosed.and (h : CaseClosed p) (h' : CaseClosed q) : CaseClosed fun n => p n ∧ q n :=
  fun o ho m hm n hn hp => ⟨h o ho m hm n hn hp.1, h' o ho m hm n hn hp.2⟩

theorem CaseClosed.or (h : CaseClosed p) (h' : CaseClosed q) : CaseClosed fun n => p n ∨ q n :=
  fun o ho m hm n hn hp => hp.imp (h o ho m hm n hn) (h' o ho m hm n hn)

/-- Only the members of the sets matter. -/
theorem CaseClosed.congr (h : CaseClosed p) (hpq : ∀ n, n ≤ 0x10FFFF → (p n ↔ q n)) :
    CaseClosed q := by
  intro o ho m hm n hn hq
  have hp := (hpq m (le_of_mem_asciiOrbits o ho m hm)).mpr hq
  exact (hpq n (le_of_mem_asciiOrbits o ho n hn)).mp (h o ho m hm n hn hp)

theorem Spares.or (h : Spares p) (h' : Spares q) : Spares fun n => p n ∨ q n := by
  rintro o ho m hm (hp | hq)
  · obtain ⟨n, hn, hascii, hp⟩ := h o ho m hm hp
    exact ⟨n, hn, hascii, .inl hp⟩
  · obtain ⟨n, hn, hascii, hq⟩ := h' o ho m hm hq
    exact ⟨n, hn, hascii, .inr hq⟩

theorem spares_of_not_signs (h : ¬ p 0x17F) (h' : ¬ p 0x212A) : Spares p := by
  intro o ho m hm hp
  have hwatched := isWatched_of_mem o ho m hm
  simp only [isWatched, Bool.or_eq_true, decide_eq_true_eq, beq_iff_eq] at hwatched
  rcases hwatched with (hascii | rfl) | rfl
  · exact ⟨m, hm, hascii, hp⟩
  · contradiction
  · contradiction

/-! ## Letters of ASCII -/

theorem mem_orbit {i m : Nat} (hm : m < 128) :
    m ∈ [65 + i, 97 + i] ++ (if i = 10 then [0x212A] else if i = 18 then [0x17F] else []) ↔
      m = 65 + i ∨ m = 97 + i := by
  have hsign : m ∉ if i = 10 then [0x212A] else if i = 18 then [0x17F] else [] := by
    split
    · simp only [List.mem_singleton]
      omega
    · split
      · simp only [List.mem_singleton]
        omega
      · exact List.not_mem_nil
  simp only [List.mem_append, hsign, or_false, List.mem_cons, List.not_mem_nil]

theorem asciiFold_iff {n : Nat} (hn : n < 128) :
    AsciiFold p n ↔
      p n ∨ (97 ≤ n ∧ n ≤ 122 ∧ p (n - 32)) ∨ (65 ≤ n ∧ n ≤ 90 ∧ p (n + 32)) := by
  have horbit : ∀ i < 26, _ ∈ asciiOrbits := fun i hi =>
    List.mem_map.mpr ⟨i, List.mem_range.mpr hi, rfl⟩
  constructor
  · rintro (h | ⟨o, ho, hno, m, hmo, hm, h⟩)
    · exact .inl h
    · obtain ⟨i, hi, rfl⟩ := List.mem_map.mp ho
      rw [List.mem_range] at hi
      rcases (mem_orbit hn).mp hno with rfl | rfl <;>
        rcases (mem_orbit hm).mp hmo with rfl | rfl
      · exact .inl h
      · exact .inr (.inr ⟨by omega, by omega, by rwa [show 65 + i + 32 = 97 + i by omega]⟩)
      · exact .inr (.inl ⟨by omega, by omega, by rwa [show 97 + i - 32 = 65 + i by omega]⟩)
      · exact .inl h
  · rintro (h | ⟨hlo, hhi, h⟩ | ⟨hlo, hhi, h⟩)
    · exact .inl h
    · have hi : n - 97 < 26 := by omega
      refine .inr ⟨_, horbit _ hi, (mem_orbit hn).mpr (by omega), n - 32,
        (mem_orbit (by omega)).mpr (by omega), by omega, h⟩
    · have hi : n - 65 < 26 := by omega
      refine .inr ⟨_, horbit _ hi, (mem_orbit hn).mpr (by omega), n + 32,
        (mem_orbit (by omega)).mpr (by omega), by omega, h⟩

theorem toNat_toLower {c : Char} (hc : c.toNat < 128) :
    c.toLower.toNat = if 65 ≤ c.toNat ∧ c.toNat ≤ 90 then c.toNat + 32 else c.toNat :=
  CharClass.ascii_induction (P := fun c => c.toLower.toNat =
    if 65 ≤ c.toNat ∧ c.toNat ≤ 90 then c.toNat + 32 else c.toNat) (by decide) hc

theorem toNat_toUpper {c : Char} (hc : c.toNat < 128) :
    c.toUpper.toNat = if 97 ≤ c.toNat ∧ c.toNat ≤ 122 then c.toNat - 32 else c.toNat :=
  CharClass.ascii_induction (P := fun c => c.toUpper.toNat =
    if 97 ≤ c.toNat ∧ c.toNat ≤ 122 then c.toNat - 32 else c.toNat) (by decide) hc

theorem toNat_cases_lt {c : Char} (hc : c.toNat < 128) :
    c.toLower.toNat < 128 ∧ c.toUpper.toNat < 128 := by
  rw [toNat_toLower hc, toNat_toUpper hc]
  constructor
  · split <;> omega
  · split <;> omega

/-- A letter of ASCII differs in case from its lower and its upper case only. -/
theorem asciiFold_char {c : Char} (hc : c.toNat < 128) :
    AsciiFold p c.toNat ↔ p c.toNat ∨ p c.toLower.toNat ∨ p c.toUpper.toNat := by
  rw [asciiFold_iff hc, toNat_toLower hc, toNat_toUpper hc]
  by_cases hupper : 65 ≤ c.toNat ∧ c.toNat ≤ 90
  · have hlower : ¬ (97 ≤ c.toNat ∧ c.toNat ≤ 122) := by omega
    rw [if_pos hupper, if_neg hlower]
    tauto
  · rw [if_neg hupper]
    by_cases hlower : 97 ≤ c.toNat ∧ c.toNat ≤ 122
    · rw [if_pos hlower]
      tauto
    · rw [if_neg hlower]
      tauto

/-! ## Folded sets -/

namespace CodeSet

variable {s t : CodeSet} {n : Nat}

theorem contains_foldCase_characters :
    (s.foldCase .characters).contains n = true ↔
      s.contains n = true ∨ ∃ o ∈ Fold.orbits, n ∈ o ∧ ∃ m ∈ o, s.contains m = true := by
  have hsingles : ∀ os : List (List Nat),
      Covered (os.flatMap fun o => o.map fun n => (n, n)) n ↔ ∃ o ∈ os, n ∈ o := by
    intro os
    simp only [Covered, List.mem_flatMap, List.mem_map]
    constructor
    · rintro ⟨r, ⟨o, ho, m, hm, rfl⟩, hle, hle'⟩
      obtain rfl : n = m := Nat.le_antisymm hle' hle
      exact ⟨o, ho, hm⟩
    · rintro ⟨o, ho, hn⟩
      exact ⟨(n, n), ⟨o, ho, n, hn, rfl⟩, Nat.le_refl n, Nat.le_refl n⟩
  rw [foldCase, contains_ofRanges, covered_append, hsingles, contains_iff]
  refine or_congr_right ?_
  simp only [List.mem_filter, List.any_eq_true]
  tauto

/-- Where letters of ASCII are concerned, all that counts are the sets of them. -/
theorem contains_foldCase_of_isWatched (hn : isWatched n = true) :
    (s.foldCase .characters).contains n = true ↔
      s.contains n = true ∨ ∃ o ∈ asciiOrbits, n ∈ o ∧ ∃ m ∈ o, s.contains m = true := by
  rw [contains_foldCase_characters]
  refine or_congr_right ?_
  constructor
  · rintro ⟨o, ho, hno, hm⟩
    exact ⟨o, mem_asciiOrbits_iff.mpr ⟨ho, n, hno, hn⟩, hno, hm⟩
  · rintro ⟨o, ho, hno, hm⟩
    exact ⟨o, (mem_asciiOrbits_iff.mp ho).1, hno, hm⟩

theorem caseClosed_foldCase (s : CodeSet) :
    CaseClosed fun n => (s.foldCase .characters).contains n = true := by
  intro o ho m hm n hn h
  rw [contains_foldCase_of_isWatched (isWatched_of_mem o ho n hn)]
  rw [contains_foldCase_of_isWatched (isWatched_of_mem o ho m hm)] at h
  rcases h with h | ⟨o', ho', hm', h⟩
  · exact .inr ⟨o, ho, hn, m, hm, h⟩
  · obtain rfl := eq_of_mem_asciiOrbits o ho o' ho' m hm hm'
    exact .inr ⟨o, ho, hn, h⟩

theorem regular_foldCase_characters (hs : s.Regular) : (s.foldCase .characters).Regular := by
  refine regular_ofRanges ?_
  intro r hr
  rcases List.mem_append.mp hr with hr | hr
  · exact hs.pieces r hr
  · obtain ⟨o, ho, hr⟩ := List.mem_flatMap.mp hr
    obtain ⟨n, hn, rfl⟩ := List.mem_map.mp hr
    obtain ⟨h, h'⟩ := orbits_eval.2 o (List.mem_filter.mp ho).1 n hn
    exact ⟨Nat.le_refl n, h, h'⟩

/-- Folding adds to the ASCII members what differs from one of them in case. -/
theorem contains_foldCase_ascii (hs : Spares fun n => s.contains n = true) (hn : n < 128) :
    (s.foldCase .characters).contains n = true ↔ AsciiFold (fun n => s.contains n = true) n := by
  rw [contains_foldCase_of_isWatched (by simp [isWatched, hn])]
  refine or_congr_right ?_
  constructor
  · rintro ⟨o, ho, hno, m, hm, h⟩
    exact ⟨o, ho, hno, hs o ho m hm h⟩
  · rintro ⟨o, ho, hno, m, hm, -, h⟩
    exact ⟨o, ho, hno, m, hm, h⟩

/-! ## Bytes -/

theorem ends_inter {first last : Nat} :
    ∀ r ∈ (s.inter ⟨[(first, last)]⟩).ranges,
      (first ≤ r.1 ∧ r.1 ≤ last) ∧ (first ≤ r.2 ∧ r.2 ≤ last) := by
  refine ends_ofRanges (P := fun m => first ≤ m ∧ m ≤ last) (Q := fun m => first ≤ m ∧ m ≤ last) ?_
  intro r hr
  obtain ⟨a, ha, hr⟩ := List.mem_flatMap.mp hr
  obtain ⟨b, hb, hr⟩ := List.mem_filterMap.mp hr
  rw [List.mem_singleton] at hb
  subst hb
  split at hr
  · cases hr
    simp only at *
    omega
  · cases hr

/-- The letters of one case that a set holds, moved to the other case. -/
theorem covered_shiftedLetters {first last : Nat} (move back : Nat → Nat)
    (hback : ∀ a, first ≤ a → a ≤ last → (move a ≤ n ↔ a ≤ back n) ∧ (n ≤ move a ↔ back n ≤ a)) :
    Covered (s.shiftedLetters first last move) n ↔
      s.contains (back n) = true ∧ first ≤ back n ∧ back n ≤ last := by
  rw [← contains_single, ← contains_inter, contains_iff]
  simp only [shiftedLetters, Covered, List.mem_map]
  constructor
  · rintro ⟨r, ⟨t, ht, rfl⟩, hlo, hhi⟩
    obtain ⟨⟨h1, h2⟩, h3, h4⟩ := ends_inter t ht
    exact ⟨t, ht, (hback t.1 h1 h2).1.mp hlo, (hback t.2 h3 h4).2.mp hhi⟩
  · rintro ⟨t, ht, hlo, hhi⟩
    obtain ⟨⟨h1, h2⟩, h3, h4⟩ := ends_inter t ht
    exact ⟨_, ⟨t, ht, rfl⟩, (hback t.1 h1 h2).1.mpr hlo, (hback t.2 h3 h4).2.mpr hhi⟩

theorem foldCase_bytes :
    s.foldCase .bytes =
      ofRanges
        (s.ranges ++ s.shiftedLetters 65 90 (· + 32) ++ s.shiftedLetters 97 122 (· - 32)) := rfl

theorem contains_foldCase_bytes :
    (s.foldCase .bytes).contains n = true ↔
      s.contains n = true ∨ (97 ≤ n ∧ n ≤ 122 ∧ s.contains (n - 32) = true) ∨
        (65 ≤ n ∧ n ≤ 90 ∧ s.contains (n + 32) = true) := by
  have hlower : Covered (s.shiftedLetters 65 90 (· + 32)) n ↔
      s.contains (n - 32) = true ∧ 65 ≤ n - 32 ∧ n - 32 ≤ 90 :=
    covered_shiftedLetters (· + 32) (· - 32) fun a _ _ => ⟨by omega, by omega⟩
  have hupper : Covered (s.shiftedLetters 97 122 (· - 32)) n ↔
      s.contains (n + 32) = true ∧ 97 ≤ n + 32 ∧ n + 32 ≤ 122 :=
    covered_shiftedLetters (· - 32) (· + 32) fun a _ _ => ⟨by omega, by omega⟩
  have hlower' : 65 ≤ n - 32 ∧ n - 32 ≤ 90 ↔ 97 ≤ n ∧ n ≤ 122 := by omega
  have hupper' : 97 ≤ n + 32 ∧ n + 32 ≤ 122 ↔ 65 ≤ n ∧ n ≤ 90 := by omega
  rw [foldCase_bytes, contains_ofRanges, covered_append, covered_append, hlower, hupper,
    ← contains_iff, hlower', hupper']
  constructor
  · rintro ((h | ⟨h, h', h''⟩) | ⟨h, h', h''⟩)
    · exact .inl h
    · exact .inr (.inl ⟨h', h'', h⟩)
    · exact .inr (.inr ⟨h', h'', h⟩)
  · rintro (h | ⟨h, h', h''⟩ | ⟨h, h', h''⟩)
    · exact .inl (.inl h)
    · exact .inl (.inr ⟨h'', h, h'⟩)
    · exact .inr ⟨h'', h, h'⟩

theorem isPiece_of_ascii {r : Nat × Nat} (h : r.1 ≤ r.2) (h' : r.2 < 128) : IsPiece r := by
  refine ⟨h, ?_, ?_⟩
  · unfold IsCut
    omega
  · unfold IsCut
    omega

/-- Letters of one case stay pieces when they are moved to the other. -/
theorem pieces_shiftedLetters {first last : Nat} {move : Nat → Nat} (hs : s.Regular)
    (hletters : IsPiece (first, last)) (hmove : ∀ a b, first ≤ a → a ≤ b → b ≤ last →
      move a ≤ move b ∧ move b < 128) :
    ∀ r ∈ s.shiftedLetters first last move, IsPiece r := by
  intro r hr
  obtain ⟨t, ht, rfl⟩ := List.mem_map.mp hr
  have hle := ((regular_inter hs (regular_single hletters)).pieces t ht).ordered
  obtain ⟨⟨hfirst, -⟩, -, hlast⟩ := ends_inter t ht
  obtain ⟨h, h'⟩ := hmove t.1 t.2 hfirst hle hlast
  exact isPiece_of_ascii h h'

theorem regular_foldCase_bytes (hs : s.Regular) : (s.foldCase .bytes).Regular := by
  have hupper : IsPiece (65, 90) := by decide
  have hlower : IsPiece (97, 122) := by decide
  refine regular_ofRanges ?_
  rw [List.forall_mem_append, List.forall_mem_append]
  refine ⟨⟨hs.pieces, ?_⟩, ?_⟩
  · exact pieces_shiftedLetters hs hupper (fun a b _ _ _ => by omega)
  · exact pieces_shiftedLetters hs hlower (fun a b _ _ _ => by omega)

theorem contains_foldCase_bytes_ascii (hn : n < 128) :
    (s.foldCase .bytes).contains n = true ↔ AsciiFold (fun n => s.contains n = true) n := by
  rw [contains_foldCase_bytes, asciiFold_iff hn]

theorem isAscii_iff : s.isAscii = true ↔ ∀ r ∈ s.ranges, r.2 ≤ 0x7F := by
  simp [isAscii]

theorem isAscii_ofRanges {rs : List (Nat × Nat)} (h : ∀ r ∈ rs, r.2 ≤ 0x7F) :
    (ofRanges rs).isAscii = true := by
  rw [isAscii_iff]
  intro r hr
  have hends := ends_ofRanges (P := fun _ => True) (Q := (· ≤ 0x7F)) fun t ht => ⟨trivial, h t ht⟩
  exact (hends r hr).2

theorem isAscii_foldCase (hs : s.isAscii = true) : (s.foldCase .bytes).isAscii = true := by
  have hletters : ∀ {first last : Nat} {move : Nat → Nat},
      (∀ a, first ≤ a → a ≤ last → move a ≤ 0x7F) →
        ∀ r ∈ s.shiftedLetters first last move, r.2 ≤ 0x7F := by
    intro first last move hmove r hr
    obtain ⟨t, ht, rfl⟩ := List.mem_map.mp hr
    obtain ⟨-, hfirst, hlast⟩ := ends_inter t ht
    exact hmove t.2 hfirst hlast
  rw [foldCase_bytes]
  refine isAscii_ofRanges ?_
  rw [List.forall_mem_append, List.forall_mem_append]
  refine ⟨⟨isAscii_iff.mp hs, hletters ?_⟩, hletters ?_⟩
  · intro a _ _
    omega
  · intro a _ _
    omega

end CodeSet

/-! ## Class letters -/

theorem NamedClass.regular_set (k : NamedClass) : k.set.Regular := by
  refine CodeSet.regular_ofRanges ?_
  cases k <;> decide

namespace LetterClass

variable {k : LetterClass} {n : Nat}

theorem regular_characters (k : LetterClass) : k.characters.Regular := by
  obtain ⟨low, h, -⟩ := k.shows_table
  rw [characters_eq]
  exact CodeSet.regular_ofRanges h.pieces

theorem contains_characters (hn : n < 128) :
    k.characters.contains n = true ↔ k.ascii.contains n = true := by
  obtain ⟨low, h, hlow⟩ := k.shows_table
  rw [characters_eq, CodeSet.contains_ofRanges, h.covered hn, hlow]

theorem regular_ascii (k : LetterClass) : k.ascii.Regular := by
  cases k <;> exact NamedClass.regular_set _

/-- A class letter holds all letters, or none. -/
theorem contains_iff_word {o : List Nat} (ho : o ∈ asciiOrbits) (hn : n ∈ o) :
    k.characters.contains n = true ↔ k = .word := by
  have hletter : ∀ o ∈ asciiOrbits, ∀ n ∈ o,
      (n < 128 ∧ ((65 ≤ n ∧ n ≤ 90) ∨ (97 ≤ n ∧ n ≤ 122))) ∨ n = 0x17F ∨ n = 0x212A := by
    decide
  rcases hletter o ho n hn with ⟨hascii, hletter⟩ | hsign
  · rw [contains_characters hascii]
    cases k <;> rw [ascii, NamedClass.set, CodeSet.contains_ofRanges] <;>
      simp only [NamedClass.ranges, covered_cons, covered_nil, or_false, reduceCtorEq, iff_false,
        iff_true] <;>
      omega
  · obtain ⟨low, h, -⟩ := k.shows_table
    rw [characters_eq, CodeSet.contains_ofRanges, h.covered_sign hsign, beq_iff_eq]

theorem caseClosed_characters (k : LetterClass) :
    CaseClosed fun n => k.characters.contains n = true := by
  intro o ho m hm n hn h
  rw [contains_iff_word ho hn]
  exact (contains_iff_word ho hm).mp h

end LetterClass

end FlowSafety.Pattern
