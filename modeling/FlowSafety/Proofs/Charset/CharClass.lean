import FlowSafety.Charset.Escape

/-!
# Members of character classes

`CharClass.contains` reads a class as a set of characters. The operations on classes
over-approximate those on sets: union, intersection and inclusion follow `contains`, and a
difference holds every member of the first class that is not in the second.

* `contains_union`, `contains_inter`, `contains_diff` — set operations
* `contains_of_isSubsetOf`, `not_contains_of_inter_isEmpty` — tests
* `inter_isEmpty_iff`, `Avoids` — classes without a common member
* `contains_caseMapped`, `Avoids.caseMapped` — the class after a case mapping holds every image of a
  member, and nothing that images avoid
* `CharClass.ascii_induction` — a property of the ASCII characters is checked one by one
-/

namespace FlowSafety

namespace CharClass

variable {a b k forbidden : CharClass} {c d : Char}

/-! ## Codes of characters -/

/-- The codes of characters leave the surrogates out. -/
theorem toNat_cases (c : Char) : c.toNat < 0xD800 ∨ 0xDFFF < c.toNat ∧ c.toNat < 0x110000 := c.valid

theorem toNat_ofNat {n : Nat} (hn : n.isValidChar) : (Char.ofNat n).toNat = n := by
  rw [Char.ofNat, dif_pos hn]
  rfl

/-- The code of an ASCII character. -/
theorem toNat_ofNat_ascii {n : Nat} (hn : n < 128) : (Char.ofNat n).toNat = n :=
  toNat_ofNat (.inl (by omega))

/-! ## Set operations -/

/-- To prove a property of every ASCII character, check them one by one. -/
theorem ascii_induction {P : Char → Prop} (h : ∀ n < 128, P (Char.ofNat n)) {c : Char}
    (hc : c.toNat < 128) : P c := by
  have hn := h c.toNat hc
  rw [Char.ofNat_toNat] at hn
  exact hn

theorem contains_ascii (hc : c.toNat < 128) : k.contains c = k.ascii.getLsbD c.toNat := by
  unfold contains
  rw [if_pos hc]

theorem contains_wide (hc : ¬ c.toNat < 128) : k.contains c = decide (k.nonAscii ≠ .none) := by
  unfold contains
  rw [if_neg hc]

/-- Characters beyond ASCII are in a class together or not at all. -/
theorem contains_wide_congr (hc : ¬ c.toNat < 128) (hd : ¬ d.toNat < 128) :
    k.contains c = k.contains d := by
  rw [contains_wide hc, contains_wide hd]

theorem contains_any (c : Char) : any.contains c = true := by
  by_cases hc : c.toNat < 128
  · rw [contains_ascii hc, any, BitVec.getLsbD_allOnes]
    exact decide_eq_true hc
  · rw [contains_wide hc]
    rfl

theorem contains_union : (a.union b).contains c = (a.contains c || b.contains c) := by
  by_cases hc : c.toNat < 128
  · rw [contains_ascii hc, contains_ascii hc, contains_ascii hc]
    exact BitVec.getLsbD_or
  · rw [contains_wide hc, contains_wide hc, contains_wide hc, union]
    cases a.nonAscii <;> cases b.nonAscii <;> rfl

theorem contains_inter : (a.inter b).contains c = (a.contains c && b.contains c) := by
  by_cases hc : c.toNat < 128
  · rw [contains_ascii hc, contains_ascii hc, contains_ascii hc]
    exact BitVec.getLsbD_and
  · rw [contains_wide hc, contains_wide hc, contains_wide hc, inter]
    cases a.nonAscii <;> cases b.nonAscii <;> rfl

/-- What is in the first class and not in the second is in the difference. -/
theorem contains_diff (ha : a.contains c = true) (hb : b.contains c = false) :
    (a.diff b).contains c = true := by
  by_cases hc : c.toNat < 128
  · rw [contains_ascii hc] at ha hb ⊢
    rw [diff, BitVec.getLsbD_and, BitVec.getLsbD_not, ha, hb, decide_eq_true hc]
    rfl
  · rw [contains_wide hc] at ha hb ⊢
    rw [diff]
    cases hna : a.nonAscii <;> cases hnb : b.nonAscii <;> simp_all [NonAscii.diff]

theorem not_contains_of_isEmpty (h : k.isEmpty = true) : k.contains c = false := by
  obtain ⟨hascii, hwide⟩ := of_decide_eq_true h
  by_cases hc : c.toNat < 128
  · rw [contains_ascii hc, hascii]
    exact BitVec.getLsbD_zero
  · rw [contains_wide hc, hwide]
    rfl

theorem not_contains_of_inter_isEmpty (h : (a.inter b).isEmpty = true)
    (ha : a.contains c = true) : b.contains c = false := by
  have hinter : (a.inter b).contains c = false := not_contains_of_isEmpty h
  rw [contains_inter, ha, Bool.true_and] at hinter
  exact hinter

theorem not_contains_of_not_intersects (h : a.intersects b = false) (ha : a.contains c = true) :
    b.contains c = false := by
  unfold intersects at h
  rw [Bool.not_eq_false'] at h
  exact not_contains_of_inter_isEmpty h ha

theorem contains_of_isSubsetOf (h : a.isSubsetOf b = true) (ha : a.contains c = true) :
    b.contains c = true := by
  cases hb : b.contains c with
  | true => rfl
  | false =>
    have hdiff : (a.diff b).contains c = true := contains_diff ha hb
    rw [not_contains_of_isEmpty h] at hdiff
    contradiction

/-- A class that excludes a character holds it in its complement. -/
theorem contains_compl (h : k.contains c = false) : k.compl.contains c = true :=
  contains_diff (contains_any c) h

/-! ## Insertion -/

theorem contains_insert_self (k : CharClass) (c : Char) : (k.insert c).contains c = true := by
  unfold insert
  by_cases hc : c.toNat < 128
  · rw [if_pos hc, contains_ascii hc, BitVec.getLsbD_or, BitVec.getLsbD_twoPow, decide_eq_true hc]
    simp
  · rw [if_neg hc, contains_wide hc]
    cases k.nonAscii <;> rfl

theorem contains_insert_of_contains (c : Char) (h : k.contains d = true) :
    (k.insert c).contains d = true := by
  unfold insert
  by_cases hd : d.toNat < 128
  · rw [contains_ascii hd] at h ⊢
    split
    · rw [BitVec.getLsbD_or, h, Bool.true_or]
    · exact h
  · rw [contains_wide hd] at h ⊢
    split
    · exact h
    · cases hn : k.nonAscii <;> simp_all [NonAscii.union]

/-- An insertion brings the character, and with one beyond ASCII all of them. -/
theorem contains_insert : (k.insert c).contains d = true ↔
    k.contains d = true ∨ d = c ∨ ¬ c.toNat < 128 ∧ ¬ d.toNat < 128 := by
  constructor
  · intro h
    unfold insert at h
    split at h
    · next hc =>
      by_cases hd : d.toNat < 128
      · rw [contains_ascii hd, BitVec.getLsbD_or, BitVec.getLsbD_twoPow, Bool.or_eq_true] at h
        rw [contains_ascii hd]
        refine h.imp_right fun h => .inl (Char.toNat_inj.1 ?_)
        exact (of_decide_eq_true (Bool.and_eq_true_iff.mp h).2).symm
      · rw [contains_wide hd] at h
        rw [contains_wide hd]
        exact .inl h
    · next hc =>
      by_cases hd : d.toNat < 128
      · rw [contains_ascii hd] at h
        rw [contains_ascii hd]
        exact .inl h
      · exact .inr (.inr ⟨hc, hd⟩)
  · rintro (h | rfl | ⟨hc, hd⟩)
    · exact contains_insert_of_contains c h
    · exact contains_insert_self k d
    · rw [contains_wide_congr hd hc]
      exact contains_insert_self k c

theorem contains_foldl_insert {cs : List Char} (h : k.contains c = true ∨ c ∈ cs) :
    (cs.foldl insert k).contains c = true := by
  induction cs generalizing k with
  | nil => exact h.resolve_right List.not_mem_nil
  | cons d cs ih =>
    refine ih ?_
    rcases h with h | h
    · exact Or.inl (contains_insert_of_contains d h)
    · rcases List.mem_cons.mp h with rfl | h
      · exact Or.inl (contains_insert_self k c)
      · exact Or.inr h

theorem contains_ofList {cs : List Char} (h : c ∈ cs) : (ofList cs).contains c = true :=
  contains_foldl_insert (Or.inr h)

theorem contains_ofText {s : String} (h : c ∈ s.toList) : (ofText s).contains c = true :=
  contains_ofList h

/-! ## Digits -/

theorem isDigit_lt (h : c.isDigit = true) : c.toNat < 128 := by
  simp only [Char.isDigit, Bool.and_eq_true, decide_eq_true_eq, UInt32.le_iff_toNat_le] at h
  have hhigh : c.toNat ≤ 57 := h.2
  omega

theorem contains_digits (h : c.isDigit = true) : digits.contains c = true :=
  ascii_induction (P := fun c => c.isDigit = true → digits.contains c = true) (by decide)
    (isDigit_lt h) h

theorem contains_hexDigits_digitChar : ∀ n < 16, hexDigits.contains n.digitChar = true := by
  decide

/-! ## Disjoint classes -/

/-- No character is in both classes. -/
def Avoids (k forbidden : CharClass) : Prop :=
  ∀ c, k.contains c = true → forbidden.contains c = false

/-- A class is empty if it holds no character. -/
theorem isEmpty_iff : k.isEmpty = true ↔ ∀ c, k.contains c = false := by
  refine ⟨fun h c => not_contains_of_isEmpty h, fun h => decide_eq_true ⟨?_, ?_⟩⟩
  · refine BitVec.eq_of_getLsbD_eq fun n hn => ?_
    have hbit := h (Char.ofNat n)
    rw [contains_ascii (by rw [toNat_ofNat_ascii hn]; exact hn), toNat_ofNat_ascii hn] at hbit
    rw [hbit]
    exact BitVec.getLsbD_zero.symm
  · have hwide := h '\x80'
    rw [contains_wide (by decide)] at hwide
    exact Decidable.not_not.mp (of_decide_eq_false hwide)

theorem inter_isEmpty_iff : (a.inter b).isEmpty = true ↔ a.Avoids b := by
  rw [isEmpty_iff]
  refine forall_congr' fun c => ?_
  rw [contains_inter, Bool.and_eq_false_imp]

theorem intersects_eq_false_iff : a.intersects b = false ↔ a.Avoids b := by
  rw [intersects, Bool.not_eq_false', inter_isEmpty_iff]

/-- Only the empty class has nothing in common with the class of all characters. -/
theorem any_avoids_iff : any.Avoids forbidden ↔ forbidden.isEmpty = true := by
  rw [isEmpty_iff]
  exact forall_congr' fun c => forall_prop_of_true (contains_any c)

theorem union_avoids : (a.union b).Avoids forbidden ↔ a.Avoids forbidden ∧ b.Avoids forbidden := by
  unfold Avoids
  simp only [contains_union, Bool.or_eq_true]
  exact ⟨fun h => ⟨fun c hc => h c (.inl hc), fun c hc => h c (.inr hc)⟩,
    fun h c hc => hc.elim (h.1 c) (h.2 c)⟩

theorem empty_avoids : empty.Avoids forbidden := by
  intro c hc
  rw [not_contains_of_isEmpty (by decide)] at hc
  contradiction

theorem Avoids.inter (h : a.Avoids forbidden) (b : CharClass) : (a.inter b).Avoids forbidden := by
  intro c hc
  rw [contains_inter] at hc
  exact h c (Bool.and_eq_true_iff.mp hc).1

theorem insert_avoids : (k.insert c).Avoids forbidden ↔
    k.Avoids forbidden ∧ forbidden.contains c = false := by
  constructor
  · exact fun h => ⟨fun d hd => h d (contains_insert_of_contains c hd),
      h c (contains_insert_self k c)⟩
  · rintro ⟨hk, hc⟩ d hd
    rcases contains_insert.mp hd with hd | rfl | ⟨hwide, hd⟩
    · exact hk d hd
    · exact hc
    · rw [contains_wide_congr hd hwide]
      exact hc

theorem ofList_avoids {cs : List Char} :
    (ofList cs).Avoids forbidden ↔ ∀ c ∈ cs, forbidden.contains c = false := by
  have hfold : ∀ (cs : List Char) (k : CharClass), (cs.foldl insert k).Avoids forbidden ↔
      k.Avoids forbidden ∧ ∀ c ∈ cs, forbidden.contains c = false := by
    intro cs
    induction cs with
    | nil => exact fun k => ⟨fun h => ⟨h, nofun⟩, And.left⟩
    | cons c cs ih =>
      intro k
      rw [List.foldl_cons, ih, insert_avoids, List.forall_mem_cons, and_assoc]
  rw [ofList, hfold]
  exact and_iff_right empty_avoids

theorem ofText_avoids {s : String} :
    (ofText s).Avoids forbidden ↔ ∀ c ∈ s.toList, forbidden.contains c = false :=
  ofList_avoids

/-! ## Case mapping -/

/-- The image of an ASCII character under a mapping to lower or upper case. -/
def asciiImage (lower : Bool) (c : Char) : Char := if lower then c.toLower else c.toUpper

/-- What a case mapping may make of a character: of an ASCII character its ASCII counterpart, and of
any other some characters beyond ASCII and ASCII letters of the target case. -/
inductive CaseImage (lower : Bool) (c : Char) : List Char → Prop
  | ascii : c.toNat < 128 → CaseImage lower c [asciiImage lower c]
  | wide {ds : List Char} : ¬ c.toNat < 128 →
      (∀ d ∈ ds, ¬ d.toNat < 128 ∨ (letters lower).contains d = true) → CaseImage lower c ds

theorem mem_asciiMembers (hc : c.toNat < 128) (h : k.contains c = true) : c ∈ k.asciiMembers := by
  refine List.mem_filter.mpr ⟨?_, h⟩
  exact List.mem_map.mpr ⟨c.toNat, List.mem_range.mpr hc, Char.ofNat_toNat c⟩

theorem asciiImage_lt (lower : Bool) (hc : c.toNat < 128) : (asciiImage lower c).toNat < 128 := by
  cases lower with
  | true => exact ascii_induction (P := fun c => c.toLower.toNat < 128) (by decide) hc
  | false => exact ascii_induction (P := fun c => c.toUpper.toNat < 128) (by decide) hc

/-- The images of ASCII members, and whether there are members beyond ASCII. -/
def images (k : CharClass) (lower : Bool) : CharClass :=
  { ascii := (ofList (k.asciiMembers.map (asciiImage lower))).ascii
    nonAscii := k.nonAscii.inter .some }

theorem caseMapped_eq (k : CharClass) (lower : Bool) :
    k.caseMapped lower =
      if k.hasNonAscii then (k.images lower).union (letters lower) else k.images lower := rfl

theorem contains_caseMapped_of_images {lower : Bool} (h : (k.images lower).contains d = true) :
    (k.caseMapped lower).contains d = true := by
  rw [caseMapped_eq]
  split
  · rw [contains_union]
    exact Bool.or_eq_true_iff.mpr (Or.inl h)
  · exact h

/-- The class after a case mapping holds every image of a member. -/
theorem contains_caseMapped {lower : Bool} {ds : List Char} (h : CaseImage lower c ds)
    (hc : k.contains c = true) (hd : d ∈ ds) : (k.caseMapped lower).contains d = true := by
  cases h with
  | ascii hascii =>
    obtain rfl := List.mem_singleton.mp hd
    have himage : (ofList (k.asciiMembers.map (asciiImage lower))).contains
        (asciiImage lower c) = true :=
      contains_ofList (List.mem_map_of_mem (mem_asciiMembers hascii hc))
    refine contains_caseMapped_of_images ?_
    rw [contains_ascii (asciiImage_lt lower hascii)] at himage ⊢
    exact himage
  | wide hwide hds =>
    rw [contains_wide hwide] at hc
    -- a character beyond ASCII brings characters beyond ASCII and the letters of the target case
    rcases hds d hd with hd | hd
    · refine contains_caseMapped_of_images ?_
      rw [contains_wide hd]
      unfold images
      cases hn : k.nonAscii <;> simp_all [NonAscii.inter]
    · have hk : k.hasNonAscii = true := hc
      rw [caseMapped_eq, if_pos hk, contains_union]
      exact Bool.or_eq_true_iff.mpr (Or.inr hd)

/-- The class holds no ASCII letter. -/
def IsLetterless (k : CharClass) : Prop := ∀ lower, (letters lower).Avoids k

theorem asciiImage_eq_or_letter (lower : Bool) (hc : c.toNat < 128) :
    asciiImage lower c = c ∨ (letters lower).contains (asciiImage lower c) = true := by
  cases lower with
  | true =>
    exact ascii_induction (P := fun c => asciiImage true c = c ∨
      (letters true).contains (asciiImage true c) = true) (by decide) hc
  | false =>
    exact ascii_induction (P := fun c => asciiImage false c = c ∨
      (letters false).contains (asciiImage false c) = true) (by decide) hc

/-- No case mapping leads from outside into a class without letters. -/
theorem IsLetterless.not_contains_image {lower : Bool} {ds : List Char} (hk : k.IsLetterless)
    (hc : k.contains c = false) (himage : CaseImage lower c ds) (hd : d ∈ ds) :
    k.contains d = false := by
  cases himage with
  | ascii hlt =>
    obtain rfl := List.mem_singleton.mp hd
    rcases asciiImage_eq_or_letter lower hlt with heq | hletter
    · rw [heq]
      exact hc
    · exact hk lower _ hletter
  | wide hwide hds =>
    rcases hds d hd with hd | hd
    · rw [contains_wide_congr hd hwide]
      exact hc
    · exact hk lower d hd

/-- A class that has nothing in common with one without letters has nothing in common with it after
a case mapping. -/
theorem Avoids.caseMapped (h : k.Avoids forbidden) (hforbidden : forbidden.IsLetterless)
    (lower : Bool) : (k.caseMapped lower).Avoids forbidden := by
  have himages : (k.images lower).Avoids forbidden := by
    intro d hd
    by_cases hlt : d.toNat < 128
    · have hmapped : (ofList (k.asciiMembers.map (asciiImage lower))).Avoids forbidden := by
        refine ofList_avoids.mpr fun d hd => ?_
        obtain ⟨c, hc, rfl⟩ := List.mem_map.mp hd
        obtain ⟨hrange, hc⟩ := List.mem_filter.mp hc
        obtain ⟨n, hn, rfl⟩ := List.mem_map.mp hrange
        have hascii : (Char.ofNat n).toNat < 128 := by
          rw [toNat_ofNat_ascii (List.mem_range.mp hn)]
          exact List.mem_range.mp hn
        exact hforbidden.not_contains_image (h _ hc) (.ascii hascii) List.mem_cons_self
      refine hmapped d ?_
      rw [contains_ascii hlt] at hd ⊢
      exact hd
    · refine h d ?_
      rw [contains_wide hlt] at hd ⊢
      unfold images at hd
      cases hn : k.nonAscii <;> simp_all [NonAscii.inter]
  rw [caseMapped_eq]
  split
  · exact union_avoids.mpr ⟨himages, hforbidden lower⟩
  · exact himages

end CharClass

end FlowSafety
