import FlowSafety.Proofs.Pattern.InOrder

/-!
# What a shape says about a text

A text that a pattern matches as a whole, or that holds a match of a pattern with a shape for
searches, has the characters and the length of the shape. In a search the match is anywhere, so it
has to be shown that it begins at the start of the text and stops at its end or in front of a final
line end. Both follow from the assertions that every match has to pass: what is in front of the one
in a row spans no bytes, and so does what is behind the other.

* `Core.holds_of_startsWith`, `Core.holds_of_endsWith` — the assertions that a match passes
* `hasEndLine_iff` — where a `$` stands in a pattern
* `shape?_confines_match` — texts that match as a whole
* `shape?_confines_search` — texts that hold a match
-/

namespace FlowSafety.Pattern

open CharClass

variable {bytes : List UInt8} {holds : Look → Nat → Prop} {l : Look} {i j n : Nat}
  {text : List Char} {k : CharClass}

/-! ## Assertions that every match passes -/

theorem Iter.le {r : Nat → Nat → Prop} (hr : ∀ i j, r i j → i ≤ j) (h : Iter r n i j) :
    i ≤ j := by
  induction n generalizing i with
  | zero => exact Nat.le_of_eq h
  | succ n ih =>
    obtain ⟨l, hl, h⟩ := h
    exact Nat.le_trans (hr i l hl) (ih h)

mutual

/-- A match does not go back. -/
theorem Core.le_of_spans : ∀ {h : Core} {i j : Nat}, h.Spans holds bytes i j → i ≤ j
  | .empty, _, _, rfl => Nat.le_refl _
  | .literal _, _, _, ⟨_, rfl⟩ => Nat.le_add_right _ _
  | .set .characters _, _, _, ⟨_, _, _, rfl⟩ => Nat.le_add_right _ _
  | .set .bytes _, _, _, ⟨_, _, _, rfl⟩ => Nat.le_add_right _ _
  | .look _, _, _, ⟨rfl, _⟩ => Nat.le_refl _
  | .repetition _ _ _ sub, _, _, ⟨_, _, _, h⟩ => h.le fun _ _ => sub.le_of_spans
  | .capture _ sub, _, _, h => Core.le_of_spans (h := sub) h
  | .concat _, _, _, h => le_of_spansAll h
  | .alternation _, _, _, h => le_of_spansOne h

theorem le_of_spansAll : ∀ {items : List Core} {i j : Nat}, SpansAll holds bytes items i j → i ≤ j
  | [], _, _, rfl => Nat.le_refl _
  | _ :: _, _, _, ⟨_, hitem, hitems⟩ =>
    Nat.le_trans (Core.le_of_spans hitem) (le_of_spansAll hitems)

theorem le_of_spansOne : ∀ {branches : List Core} {i j : Nat},
    SpansOne holds bytes branches i j → i ≤ j
  | [], _, _, h => h.elim
  | _ :: _, _, _, .inl h => Core.le_of_spans h
  | _ :: _, _, _, .inr h => le_of_spansOne h

end

/-- What takes no byte stays where it is. -/
theorem eq_of_not_takesByte {h : Core} (horder : h.InOrder) (htakes : h.takesByte = false)
    (hspan : h.Spans holds bytes i j) : i = j := by
  have hlength : h.maxLength = some 0 := by
    simpa [Core.takesByte] using htakes
  exact Nat.le_antisymm (Core.le_of_spans hspan) (Core.spans_length horder hlength hspan)

theorem eq_of_none_takesByte {items : List Core} (horder : AllInOrder items)
    (htakes : ∀ h ∈ items, h.takesByte = false) (hspan : SpansAll holds bytes items i j) :
    i = j := by
  induction items generalizing i with
  | nil => exact hspan
  | cons item items ih =>
    obtain ⟨hfirst, hrest⟩ := List.forall_mem_cons.mp htakes
    obtain ⟨m, hitem, hitems⟩ := hspan
    obtain rfl := eq_of_not_takesByte horder.1 hfirst hitem
    exact ih horder.2 hrest hitems

mutual

/-- Where a match begins, the assertion holds that the pattern starts with. -/
theorem Core.holds_of_startsWith : ∀ {h : Core} {i j : Nat}, h.InOrder → h.startsWith l = true →
    h.Spans holds bytes i j → holds l i
  | .empty, _, _, _, hl, _ => by contradiction
  | .literal _, _, _, _, hl, _ => by contradiction
  | .set _ _, _, _, _, hl, _ => by contradiction
  | .look _, _, _, _, hl, ⟨rfl, h⟩ => of_decide_eq_true hl ▸ h
  | .repetition _ _ _ sub, _, _, horder, hl, ⟨n, hmin, _, h⟩ => by
    obtain ⟨hpos, hsub⟩ := Bool.and_eq_true_iff.mp hl
    -- there is a first round, since at least one is asked for
    cases n with
    | zero => exact absurd (of_decide_eq_true hpos) (Nat.not_lt.mpr hmin)
    | succ n =>
      obtain ⟨m, hfirst, -⟩ := h
      exact Core.holds_of_startsWith (h := sub) horder hsub hfirst
  | .capture _ sub, _, _, horder, hl, h => Core.holds_of_startsWith (h := sub) horder hl h
  | .concat _, _, _, horder, hl, h => holds_of_anyStartsWith horder hl h
  | .alternation _, _, _, horder, hl, h => holds_of_allStartWith horder hl h

theorem holds_of_anyStartsWith : ∀ {items : List Core} {i j : Nat}, AllInOrder items →
    Core.anyStartsWith l items = true → SpansAll holds bytes items i j → holds l i
  | [], _, _, _, hl, _ => by contradiction
  | _ :: _, _, _, horder, hl, ⟨_, hitem, hitems⟩ => by
    rcases Bool.or_eq_true_iff.mp hl with hl | hl
    · exact Core.holds_of_startsWith horder.1 hl hitem
    · -- the first item takes no byte, so the others begin where the match does
      obtain ⟨hidle, hl⟩ := Bool.and_eq_true_iff.mp hl
      obtain rfl := eq_of_not_takesByte horder.1 (by simpa using hidle) hitem
      exact holds_of_anyStartsWith horder.2 hl hitems

theorem holds_of_allStartWith : ∀ {branches : List Core} {i j : Nat}, AllInOrder branches →
    Core.allStartWith l branches = true → SpansOne holds bytes branches i j → holds l i
  | [], _, _, _, _, h => h.elim
  | _ :: _, _, _, horder, hl, h => by
    obtain ⟨hbranch, hbranches⟩ := Bool.and_eq_true_iff.mp hl
    rcases h with h | h
    · exact Core.holds_of_startsWith horder.1 hbranch h
    · exact holds_of_allStartWith horder.2 hbranches h

end

mutual

/-- Where a match stops, the assertion holds that the pattern ends with. -/
theorem Core.holds_of_endsWith : ∀ {h : Core} {i j : Nat}, h.InOrder → h.endsWith l = true →
    h.Spans holds bytes i j → holds l j
  | .empty, _, _, _, hl, _ => by contradiction
  | .literal _, _, _, _, hl, _ => by contradiction
  | .set _ _, _, _, _, hl, _ => by contradiction
  | .look _, _, _, _, hl, ⟨rfl, h⟩ => of_decide_eq_true hl ▸ h
  | .repetition _ _ _ sub, _, _, horder, hl, ⟨n, hmin, _, h⟩ => by
    obtain ⟨hpos, hsub⟩ := Bool.and_eq_true_iff.mp hl
    cases n with
    | zero => exact absurd (of_decide_eq_true hpos) (Nat.not_lt.mpr hmin)
    | succ n =>
      obtain ⟨m, -, m', hlast, rfl⟩ := Iter.split (n := 1) h
      exact Core.holds_of_endsWith (h := sub) horder hsub hlast
  | .capture _ sub, _, _, horder, hl, h => Core.holds_of_endsWith (h := sub) horder hl h
  | .concat _, _, _, horder, hl, h => holds_of_anyEndsWith horder hl h
  | .alternation _, _, _, horder, hl, h => holds_of_allEndWith horder hl h

theorem holds_of_anyEndsWith : ∀ {items : List Core} {i j : Nat}, AllInOrder items →
    Core.anyEndsWith l items = true → SpansAll holds bytes items i j → holds l j
  | [], _, _, _, hl, _ => by contradiction
  | _ :: items, _, _, horder, hl, ⟨_, hitem, hitems⟩ => by
    rcases Bool.or_eq_true_iff.mp hl with hl | hl
    · exact holds_of_anyEndsWith horder.2 hl hitems
    · -- none of the others takes a byte, so the first item stops where the match does
      obtain ⟨hidle, hl⟩ := Bool.and_eq_true_iff.mp hl
      have hidle : ∀ h ∈ items, h.takesByte = false := by simpa using hidle
      obtain rfl := eq_of_none_takesByte horder.2 hidle hitems
      exact Core.holds_of_endsWith horder.1 hl hitem

theorem holds_of_allEndWith : ∀ {branches : List Core} {i j : Nat}, AllInOrder branches →
    Core.allEndWith l branches = true → SpansOne holds bytes branches i j → holds l j
  | [], _, _, _, _, h => h.elim
  | _ :: _, _, _, horder, hl, h => by
    obtain ⟨hbranch, hbranches⟩ := Bool.and_eq_true_iff.mp hl
    rcases h with h | h
    · exact Core.holds_of_endsWith horder.1 hbranch h
    · exact holds_of_allEndWith horder.2 hbranches h

end

/-! ## A final line end -/

/-- The texts that end a line have two characters at most, all of them line ends. -/
theorem lineEndTexts_spec : ∀ e ∈ lineEndTexts, e.length ≤ 2 ∧ ∀ c ∈ e, c ∈ lineEndChars := by
  simp [lineEndTexts, lineEndChars]

/-- A part of a pattern is not a `$`. -/
def Ast.isNoDollar : Ast → Bool
  | .assertion .endLine => false
  | _ => true

/-- Some part of the pattern is a `$`. -/
def Ast.HasDollar (ast : Ast) : Prop := ast.every Ast.isNoDollar (fun _ => true) = false

mutual

theorem every_true : ∀ set : ClassSet, set.every (fun _ => true) = true
  | .bracketed _ set => every_true set
  | .union items => everyItem_true items
  | .binary _ left right => by
    rw [ClassSet.every, every_true left, every_true right]
    rfl
  | .empty | .literal _ | .range _ _ | .named _ _ | .property _ _ | .letter _ _ => rfl

theorem everyItem_true : ∀ items : List ClassSet, everyItem (fun _ => true) items = true
  | [] => rfl
  | item :: items => Bool.and_eq_true_iff.mpr ⟨every_true item, everyItem_true items⟩

end

mutual

theorem every_isNoDollar : ∀ ast : Ast,
    ast.every Ast.isNoDollar (fun _ => true) = !ast.hasEndLine
  | .assertion .endLine => rfl
  | .assertion .startLine | .assertion .startText | .assertion .endText => rfl
  | .assertion (.word _) | .empty | .flags _ | .literal _ | .dot | .property _ _ | .letter _ _ => rfl
  | .bracketed _ set => every_true set
  | .repetition _ _ _ sub => every_isNoDollar sub
  | .group _ sub => every_isNoDollar sub
  | .alternation branches => everyPart_isNoDollar branches
  | .concat items => everyPart_isNoDollar items

theorem everyPart_isNoDollar : ∀ items : List Ast,
    everyPart Ast.isNoDollar (fun _ => true) items = !Ast.anyHasEndLine items
  | [] => rfl
  | item :: items => by
    rw [everyPart, every_isNoDollar item, everyPart_isNoDollar items, Ast.anyHasEndLine,
      Bool.not_or]

end

theorem hasEndLine_iff {ast : Ast} : ast.hasEndLine = true ↔ ast.HasDollar := by
  rw [Ast.HasDollar, every_isNoDollar, Bool.not_eq_false']

/-- Nothing but a line end is behind the position. -/
def BeforeLineEnd (bytes : List UInt8) (n : Nat) : Prop :=
  ∃ e ∈ lineEndTexts, bytes.drop n = encoded e

/-- Where the assertions of the ends of a text may hold: at its ends, and for a pattern with a `$`
in front of a final line end as well. -/
structure EndsHold (holds : Look → Nat → Prop) (bytes : List UInt8) (dollar : Prop) : Prop where
  start : ∀ n, holds .start n → n = 0
  stop : ∀ n, holds .stop n → n = bytes.length ∨ dollar ∧ BeforeLineEnd bytes n

/-! ## Characters and lengths -/

theorem ShowsBetween.mono {k' : CharClass} (h : ShowsBetween k bytes i j)
    (hk : ∀ c, k.contains c = true → k'.contains c = true) : ShowsBetween k' bytes i j :=
  fun n b hlow hhigh hb => hk _ (h n b hlow hhigh hb)

/-- The bytes of a final line end show where its characters are in the class. -/
theorem showsBetween_of_drop {cs : List Char} (hdrop : bytes.drop i = encoded cs)
    (hcs : ∀ c ∈ cs, k.contains c = true) : ShowsBetween k bytes i j := by
  intro n b hlow _ hb
  have hmem : b ∈ encoded cs := by
    rw [← hdrop, List.mem_iff_getElem?]
    exact ⟨n - i, by rw [List.getElem?_drop, Nat.add_sub_cancel' hlow, hb]⟩
  obtain ⟨c, hc, hbyte⟩ := List.mem_flatMap.mp hmem
  exact (shows_of_mem_encode hbyte).mpr (hcs c hc)

/-- A match that begins at the start of a text and has nothing behind it but a line end, if that. -/
theorem confines_before {h : Core} {e : List Char} (horder : h.InOrder)
    (hspan : h.Spans holds (encoded text) 0 j) (hdrop : (encoded text).drop j = encoded e)
    (htwo : e.length ≤ 2) (hends : ∀ c ∈ e, c ∈ lineEndChars) :
    (∀ c ∈ text, h.shape.beforeLineEnd.chars.contains c = true) ∧
      ∀ n, h.shape.beforeLineEnd.maxLength = some n → text.length ≤ n := by
  constructor
  · refine contains_of_showsBetween (ShowsBetween.trans (l := j) ?_ (showsBetween_of_drop hdrop ?_))
    · exact (Core.spans_shows hspan).mono fun c hc => contains_foldl_insert (.inl hc)
    · exact fun c hc => contains_foldl_insert (.inr (hends c hc))
  · intro n hn
    obtain ⟨m, hm, hn⟩ := Option.bind_eq_some_iff.mp hn
    obtain ⟨rfl, -⟩ := Size.checked_eq_some_iff.mp hn
    have hlength := Core.spans_length horder hm hspan
    have hcount : text.length ≤ ((encoded text).take j).length + e.length := by
      refine Text.length_le_of_encoded_eq ?_
      rw [← hdrop, List.take_append_drop]
    rw [List.length_take] at hcount
    omega

/-! ## Shapes -/

variable {pattern value : String} {shape : Shape} {ast : Ast} {h : Core}

theorem shape?_eq (hread : parse? (withDollar pattern) = some ast)
    (hmeaning : meaning? .ascii ast = some h) (full : Bool) :
    shape? pattern full =
      if full then some h.shape
      else if h.startsWith .start && h.endsWith .stop then
        some (if ast.hasEndLine then h.shape.beforeLineEnd else h.shape)
      else none := by
  rw [shape?, hread, Option.bind_some, hmeaning, Option.bind_some]

/-- A text that matches as a whole has the characters and the length of the shape. -/
theorem shape?_confines_match (hshape : shape? pattern true = some shape)
    (hread : parse? (withDollar pattern) = some ast) (hmeaning : meaning? .ascii ast = some h)
    (hspan : h.Spans holds (encoded value.toList) 0 (encoded value.toList).length) :
    (∀ c ∈ value.toList, shape.chars.contains c = true) ∧
      ∀ n, shape.maxLength = some n → value.length ≤ n := by
  rw [shape?_eq hread hmeaning] at hshape
  obtain rfl := Option.some.inj hshape
  rw [← String.length_toList]
  exact ⟨Core.chars_of_spans hspan, fun n =>
    Core.length_of_spans (inOrder_of_meaning hread hmeaning) hspan⟩

/-- A text that holds a match has the characters and the length of the shape, wherever the match
is: every match of a pattern that has a shape for searches spans the text up to a final line end. -/
theorem shape?_confines_search (hshape : shape? pattern false = some shape)
    (hread : parse? (withDollar pattern) = some ast) (hmeaning : meaning? .ascii ast = some h)
    (hends : EndsHold holds (encoded value.toList) ast.HasDollar)
    (hspan : h.Spans holds (encoded value.toList) i j) :
    (∀ c ∈ value.toList, shape.chars.contains c = true) ∧
      ∀ n, shape.maxLength = some n → value.length ≤ n := by
  have horder := inOrder_of_meaning hread hmeaning
  rw [shape?_eq hread hmeaning] at hshape
  obtain ⟨hanchored, hshape⟩ := Option.ite_none_right_eq_some.mp hshape
  obtain ⟨hstarts, hstops⟩ := Bool.and_eq_true_iff.mp hanchored
  obtain rfl := hends.start i (Core.holds_of_startsWith horder hstarts hspan)
  have hstop := hends.stop j (Core.holds_of_endsWith horder hstops hspan)
  obtain rfl := Option.some.inj hshape
  rw [← String.length_toList]
  -- only a `$` lets the match stop in front of a line end, and then the shape allows for one
  by_cases hdollar : ast.hasEndLine = true
  · rw [if_pos hdollar]
    rcases hstop with rfl | ⟨-, e, he, hdrop⟩
    · refine confines_before (e := []) horder hspan ?_ (Nat.zero_le 2) (by simp)
      rw [List.drop_length]
      rfl
    · obtain ⟨htwo, hchars⟩ := lineEndTexts_spec e he
      exact confines_before horder hspan hdrop htwo hchars
  · rw [if_neg hdollar]
    rcases hstop with rfl | ⟨hhas, -⟩
    · exact ⟨Core.chars_of_spans hspan, fun n => Core.length_of_spans horder hspan⟩
    · exact absurd (hasEndLine_iff.mpr hhas) hdollar

/-- The assertions of the ends of a text of two characters and a line end of two. -/
def holdsBeforeLineEnd : Look → Nat → Prop
  | .start, n => n = 0
  | .stop, n => n = 4 ∨ n = 2
  | _, _ => False

/-- A choice between the ends of a text. -/
def choiceBetweenEnds : Ast :=
  .concat [.assertion .startText,
    .group (.plain {}) (.alternation [.literal { char := 'a' },
      .concat [.literal { char := 'b' }, .literal { char := 'c' }]]),
    .assertion .endLine]

/-- A closing `\Z` is read as a `$`, so a match may stop in front of a line end. -/
theorem shape?_confines_search_line_end :
    shape? "\\A(?:a|bc)\\Z" false =
        some ⟨(CharClass.ofText "abc").union (ofList lineEndChars), some 4⟩ ∧
      (∀ c ∈ "bc\r\n".toList,
        ((CharClass.ofText "abc").union (ofList lineEndChars)).contains c = true) ∧
      "bc\r\n".length ≤ 4 := by
  have hshape : shape? "\\A(?:a|bc)\\Z" false =
      some ⟨(CharClass.ofText "abc").union (ofList lineEndChars), some 4⟩ := by decide +kernel
  have hread : parse? (withDollar "\\A(?:a|bc)\\Z") = some choiceBetweenEnds := rfl
  have hmeaning : meaning? .ascii choiceBetweenEnds = some (.concat [.look .start,
      .alternation [.literal [0x61], .literal [0x62, 0x63]], .look .stop]) := rfl
  have hbytes : encoded "bc\r\n".toList = [0x62, 0x63, 0x0D, 0x0A] := by
    rw [String.toList_ofList]
    decide
  have hends : EndsHold holdsBeforeLineEnd (encoded "bc\r\n".toList)
      choiceBetweenEnds.HasDollar := by
    rw [hbytes]
    refine ⟨fun n hn => hn, fun n hn => ?_⟩
    rcases hn with rfl | rfl
    · exact .inl rfl
    · exact .inr ⟨rfl, ['\r', '\n'], by decide, by decide⟩
  have hspan : (Core.concat [.look .start, .alternation [.literal [0x61], .literal [0x62, 0x63]],
      .look .stop]).Spans holdsBeforeLineEnd (encoded "bc\r\n".toList) 0 2 := by
    rw [hbytes]
    exact ⟨0, ⟨rfl, rfl⟩, 2, .inr (.inl ⟨by decide, rfl⟩), 2, ⟨rfl, .inr rfl⟩, rfl⟩
  obtain ⟨hchars, hlength⟩ := shape?_confines_search hshape hread hmeaning hends hspan
  exact ⟨hshape, hchars, hlength 4 rfl⟩

end FlowSafety.Pattern
