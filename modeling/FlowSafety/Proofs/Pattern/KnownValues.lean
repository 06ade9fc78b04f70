import FlowSafety.Proofs.Pattern.Anchored
import FlowSafety.Proofs.Walk.Summary

/-!
# Known values behind a check

A passed check filters known values by searching them for the pattern, with the meanings of Unicode
and a `$` that stands at the end of the text only. What a check means otherwise is `Matches`: ASCII,
and in a search a `$` that also stands in front of a final line end.

The two agree on texts of ASCII and on plain patterns, where the check is for the whole text, where
no `$` occurs, and where the text does not end in a line end. In a search a text that ends in a line
end may pass the check and be dropped.

* `found_iff`, `found_anchored_iff` — what a search for the pattern finds
* `Branch.refine_known` — which known values a passed check keeps
-/

namespace FlowSafety.Pattern

variable {text : Array Char} {i j : Nat}

/-! ## Line ends -/

theorem Iter.mono {r r' : Nat → Nat → Prop} (h : ∀ i j, r i j → r' i j) {n : Nat}
    (hr : Iter r n i j) : Iter r' n i j := by
  induction n generalizing i with
  | zero => exact hr
  | succ n ih =>
    obtain ⟨k, hk, hr⟩ := hr
    exact ⟨k, h i k hk, ih hr⟩

variable {early early' : Prop}

mutual

/-- A match stays one where a `$` may stand at least as often. -/
theorem Ast.takes_mono : ∀ {ast : Ast} {f : Flags} {i j : Nat},
    (ast.hasEndLine = true → ∀ i, early → AtLastLineEnd text i → early') →
      ast.Takes text early f i j → ast.Takes text early' f i j
  | .empty, _, _, _, _, h => h
  | .flags _, _, _, _, _, h => h
  | .literal _, _, _, _, _, h => h
  | .dot, _, _, _, _, h => h
  | .assertion a, _, _, _, hearly, h => by
    obtain ⟨rfl, h⟩ := h
    refine ⟨rfl, ?_⟩
    rcases h with h | ⟨he, rfl, hend⟩
    · exact .inl h
    · exact .inr ⟨hearly rfl _ he hend, rfl, hend⟩
  | .property _ _, _, _, _, _, h => h
  | .letter _ _, _, _, _, _, h => h
  | .bracketed _ _, _, _, _, _, h => h
  | .repetition _ _ _ sub, _, _, _, hearly, h => by
    obtain ⟨n, hmin, hmax, h⟩ := h
    exact ⟨n, hmin, hmax, h.mono fun _ _ => @Ast.takes_mono sub _ _ _ hearly⟩
  | .group (.capture _) sub, _, _, _, hearly, h => @Ast.takes_mono sub _ _ _ hearly h
  | .group (.plain _) sub, _, _, _, hearly, h => @Ast.takes_mono sub _ _ _ hearly h
  | .alternation branches, _, _, _, hearly, h => @takesAny_mono branches _ _ _ hearly h
  | .concat items, _, _, _, hearly, h => @takesRow_mono items _ _ _ hearly h

theorem takesAny_mono : ∀ {branches : List Ast} {f : Flags} {i j : Nat},
    (Ast.anyHasEndLine branches = true → ∀ i, early → AtLastLineEnd text i → early') →
      TakesAny text early branches f i j → TakesAny text early' branches f i j
  | [], _, _, _, _, h => h
  | branch :: branches, _, _, _, hearly, h => by
    rcases h with h | h
    · exact .inl (Ast.takes_mono (fun hb => hearly (Bool.or_eq_true_iff.mpr (.inl hb))) h)
    · exact .inr (takesAny_mono (fun hb => hearly (Bool.or_eq_true_iff.mpr (.inr hb))) h)

theorem takesRow_mono : ∀ {items : List Ast} {f : Flags} {i j : Nat},
    (Ast.anyHasEndLine items = true → ∀ i, early → AtLastLineEnd text i → early') →
      TakesRow text early items f i j → TakesRow text early' items f i j
  | [], _, _, _, _, h => h
  | item :: items, _, _, _, hearly, h => by
    obtain ⟨k, hk, h⟩ := h
    exact ⟨k, Ast.takes_mono (fun hb => hearly (Bool.or_eq_true_iff.mpr (.inl hb))) hk,
      takesRow_mono (fun hb => hearly (Bool.or_eq_true_iff.mpr (.inr hb))) h⟩

end

/-- A text without a line end at its end has no place in front of one. -/
theorem not_atLastLineEnd {v : String} (h : ∀ e ∈ lineEndTexts, ¬ e <:+ v.toList) :
    ∀ i, ¬ AtLastLineEnd v.toList.toArray i := by
  rintro i ⟨hmem, -⟩
  exact h _ hmem (List.drop_suffix i v.toList)

/-! ## Searches -/

variable {beyond : Prop} {ast : Ast} {h : Core} {v : String}

/-- A search of a text finds what the pattern means in ASCII. -/
theorem found_iff (hsuits : Suits beyond ast) (htext : ∀ c ∈ v.toList, c.toNat < 128 ∨ beyond)
    (hmeaning : meaning? .unicode ast = some h) :
    h.isFoundIn v = true ↔
      ∃ i ≤ v.toList.toArray.size, ∃ j,
        ast.Takes v.toList.toArray False Mode.ascii.flags i j := by
  have htext : ∀ c ∈ v.toList.toArray, c.toNat < 128 ∨ beyond := fun c hc =>
    htext c (List.mem_toArray.mp hc)
  obtain ⟨_, hresolves⟩ := meaning_eq_some_iff.mp hmeaning
  have hmeans := hresolves.means htext hsuits fun _ => rfl
  rw [Core.isFoundIn_iff]
  simp only [hmeans.takes]
  rfl

theorem Suits.anchored (h : Suits beyond ast) : Suits beyond ast.anchored := by
  have hevery : ∀ {p : Ast → Bool} {q : ClassSet → Bool}, p (.assertion .startLine) = true →
      p (.assertion .endLine) = true → p (.group (.plain {}) ast) = true →
        p ast.anchored = true → ast.every p q = true → ast.anchored.every p q = true := by
    intro p q hstart hend hgroup hrow hast
    simp only [Ast.anchored, Ast.every, everyPart, Bool.and_eq_true]
    exact ⟨hrow, hstart, ⟨hgroup, hast⟩, hend, trivial⟩
  exact ⟨hevery rfl rfl rfl rfl h.readable, fun hb => hevery rfl rfl rfl rfl (h.signs hb),
    fun hb => hevery rfl rfl rfl rfl (h.plain hb)⟩

theorem holdsAt_start (hi : i ≤ text.size) : Look.start.holdsAt text i = true ↔ i = 0 := by
  simp only [Look.holdsAt, Look.holdsBetween]
  split
  · rename_i hzero
    simp [hzero]
  · rename_i hpos
    have hlt : i - 1 < text.size := by omega
    simp [hpos, Array.getElem?_eq_getElem hlt]

theorem holdsAt_stop : Look.stop.holdsAt text i = true ↔ text.size ≤ i := by
  simp [Look.holdsAt, Look.holdsBetween]

/-- What a pattern between anchors takes: a whole text. -/
theorem takes_anchored (hi : i ≤ text.size) (hj : j ≤ text.size) :
    ast.anchored.Takes text False Mode.ascii.flags i j ↔
      i = 0 ∧ j = text.size ∧ ast.Takes text False Mode.ascii.flags 0 text.size := by
  have hplain : ∀ {a : Assertion} {k : Nat}, (look Mode.ascii.flags a).holdsAt text k = true ∨
      (False ∧ a = .endLine ∧ AtLastLineEnd text k) ↔
        (look Mode.ascii.flags a).holdsAt text k = true := by
    intro a k
    rw [false_and, or_false]
  constructor
  · rintro ⟨k, ⟨rfl, hstart⟩, l, htakes, m, ⟨rfl, hstop⟩, rfl⟩
    obtain rfl := (holdsAt_start hi).mp (hplain.mp hstart)
    obtain rfl := Nat.le_antisymm hj (holdsAt_stop.mp (hplain.mp hstop))
    exact ⟨rfl, rfl, htakes⟩
  · rintro ⟨rfl, rfl, htakes⟩
    exact ⟨0, ⟨rfl, .inl ((holdsAt_start hi).mpr rfl)⟩, text.size, htakes, text.size,
      ⟨rfl, .inl (holdsAt_stop.mpr (Nat.le_refl _))⟩, rfl⟩

/-- A search for a pattern between anchors finds what the pattern means for a whole text. -/
theorem found_anchored_iff (hsuits : Suits beyond ast)
    (htext : ∀ c ∈ v.toList, c.toNat < 128 ∨ beyond)
    (hmeaning : meaning? .unicode ast.anchored = some h) :
    h.isFoundIn v = true ↔
      ast.Takes v.toList.toArray False Mode.ascii.flags 0 v.toList.toArray.size := by
  obtain ⟨_, hresolves⟩ := meaning_eq_some_iff.mp hmeaning
  have hmeans := hresolves.means (fun c hc => htext c (List.mem_toArray.mp hc)) hsuits.anchored
    fun _ => rfl
  rw [found_iff hsuits.anchored htext hmeaning]
  constructor
  · rintro ⟨i, hi, j, htakes⟩
    have hj := (Core.takes_forward _ h i j hi ((hmeans.takes i j).mpr htakes)).2
    exact ((takes_anchored hi hj).mp htakes).2.2
  · intro htakes
    exact ⟨0, Nat.zero_le _, _, (takes_anchored (Nat.zero_le _) (Nat.le_refl _)).mpr
      ⟨rfl, rfl, htakes⟩⟩

/-! ## Known values -/

/-- A text that a search and the meaning in ASCII agree on. -/
def Agrees (ast : Ast) (v : String) : Prop :=
  ((∀ c ∈ v.toList, c.toNat < 128) ∧ ast.hasNoSign = true) ∨ ast.isPlain = true

/-- A pattern that has a shape, and does not ask for the meanings of Unicode, is one that a search
and its meaning in ASCII agree on. -/
theorem suits_of_shape {pattern : String} {full : Bool}
    (hshape : (shape? pattern full).isSome = true) (hdollar : withDollar pattern = pattern)
    (hread : parse? pattern = some ast) (hascii : ast.isOfAscii = true) (hv : Agrees ast v) :
    Suits (ast.isPlain = true) ast := by
  obtain ⟨shape, hshape⟩ := Option.isSome_iff_exists.mp hshape
  obtain ⟨ast', hast, hshape⟩ := Option.bind_eq_some_iff.mp hshape
  rw [hdollar, hread] at hast
  cases hast
  obtain ⟨h, hmeaning, -⟩ := Option.bind_eq_some_iff.mp hshape
  obtain ⟨_, hresolves⟩ := meaning_eq_some_iff.mp hmeaning
  obtain ⟨hreadable, -⟩ := hresolves.readable rfl (formed_of_parse hread) hascii
  exact ⟨hreadable, fun hb => (hv.resolve_right hb).2, id⟩

theorem Agrees.chars (hv : Agrees ast v) :
    ∀ c ∈ v.toList, c.toNat < 128 ∨ ast.isPlain = true := by
  rcases hv with ⟨hascii, -⟩ | hplain
  · exact fun c hc => .inl (hascii c hc)
  · exact fun _ _ => .inr hplain

/-- A search for the pattern of a check finds a text only if the text passes the check. The converse
holds unless a `$` may stand in front of a final line end. -/
theorem found_iff_matches {pattern : String} {full : Bool}
    (hshape : (shape? pattern full).isSome = true) (hdollar : withDollar pattern = pattern)
    (hread : parse? pattern = some ast) (hascii : ast.isOfAscii = true) (hv : Agrees ast v)
    (hsearch : searcher? (FlowSafety.anchored pattern full) = some h) :
    (h.isFoundIn v = true → Matches pattern full v) ∧
      (Matches pattern full v →
        full = true ∨ ast.hasEndLine = false ∨ (∀ e ∈ lineEndTexts, ¬ e <:+ v.toList) →
          h.isFoundIn v = true) := by
  have hsuits := suits_of_shape hshape hdollar hread hascii hv
  have hmatches : Matches pattern full v ↔
      let text := v.toList.toArray
      if full then ast.Takes text False Mode.ascii.flags 0 text.size
      else ∃ i j, i ≤ text.size ∧ ast.Takes text True Mode.ascii.flags i j := by
    rw [Matches, hdollar, hread]
    simp
  rw [hmatches]
  obtain ⟨ast', hread', hmeaning, -⟩ := searcher_eq_some_iff.mp hsearch
  cases full with
  | true =>
    obtain rfl : ast' = ast.anchored := parse_anchored hread hread'
    have hfound := found_anchored_iff hsuits hv.chars hmeaning
    exact ⟨hfound.mp, fun h _ => hfound.mpr h⟩
  | false =>
    obtain rfl : ast = ast' := Option.some.inj (hread.symm.trans hread')
    rw [found_iff hsuits hv.chars hmeaning]
    constructor
    · rintro ⟨i, hi, j, htakes⟩
      exact ⟨i, j, hi, Ast.takes_mono (fun _ _ _ _ => trivial) htakes⟩
    · rintro ⟨i, j, hi, htakes⟩ hends
      refine ⟨i, hi, j, Ast.takes_mono (fun hdollar k _ hend => ?_) htakes⟩
      rcases hends with h | h | h
      · contradiction
      · rw [h] at hdollar
        contradiction
      · exact not_atLastLineEnd h k hend

end FlowSafety.Pattern

namespace FlowSafety

/-- A passed check against a pattern keeps known values that match it. Of those that match it may
drop one that ends in a line end, if the pattern has a `$` and the check is a search. -/
theorem Branch.refine_known {b : Branch} {g : TextGuarantee} {known : TextSet} {pattern : String}
    {full : Bool} {ast : Pattern.Ast} (hpassed : b.outcome = .passed)
    (hcondition : b.condition = .matchesPattern pattern full) (hknown : g.values = some known)
    (hshape : (Pattern.shape? pattern full).isSome = true)
    (hvalid : Pattern.isValid (anchored pattern full) = true)
    (hdollar : Pattern.withDollar pattern = pattern) (hread : Pattern.parse? pattern = some ast)
    (hascii : ast.isOfAscii = true) :
    ∃ kept why, b.refine (.text g) = .ok (.text (.oneOf kept), why) ∧
      (∀ v ∈ kept, v ∈ known) ∧
        ∀ v ∈ known, Pattern.Agrees ast v →
          (v ∈ kept → Pattern.Matches pattern full v) ∧
            (Pattern.Matches pattern full v →
              full = true ∨ ast.hasEndLine = false ∨
                (∀ e ∈ Pattern.lineEndTexts, ¬ e <:+ v.toList) →
              v ∈ kept) := by
  obtain ⟨h, hsearch⟩ := Option.isSome_iff_exists.mp hvalid
  have hkept : ∀ v, v ∈ known.filter h.isFoundIn ↔ v ∈ known ∧ h.isFoundIn v = true := fun v =>
    List.mem_filter
  refine ⟨known.filter h.isFoundIn, s!"known values filtered by /{pattern}/", ?_,
    fun v hv => ((hkept v).mp hv).1, fun v hv hagrees => ?_⟩
  · have hmatching : g.matching pattern full = .ok (.oneOf (known.filter h.isFoundIn),
        s!"known values filtered by /{pattern}/") := by
      unfold TextGuarantee.matching
      rw [hknown]
      dsimp only
      rw [hsearch]
    unfold Branch.refine
    rw [hcondition]
    dsimp only
    rw [if_pos hpassed, hmatching]
    rfl
  · obtain ⟨hsound, hcomplete⟩ :=
      Pattern.found_iff_matches hshape hdollar hread hascii hagrees hsearch
    exact ⟨fun hv => hsound ((hkept v).mp hv).2, fun hmatches hends =>
      (hkept v).mpr ⟨hv, hcomplete hmatches hends⟩⟩

/-- Of two known values a search for a repeated choice keeps the one that matches it. -/
theorem Branch.refine_known_alternatives :
    let b : Branch :=
      { parent := none, condition := .matchesPattern "^(?:a|<b)+$" false, outcome := .passed }
    (Pattern.shape? "^(?:a|<b)+$" false).isSome = true ∧
      Pattern.isValid (anchored "^(?:a|<b)+$" false) = true ∧
      Pattern.withDollar "^(?:a|<b)+$" = "^(?:a|<b)+$" ∧
      ∃ kept why, b.refine (.text (.oneOf (.ofList ["<ba", "<a"]))) =
          .ok (.text (.oneOf kept), why) ∧
        (∀ v ∈ kept, v ∈ TextSet.ofList ["<ba", "<a"] ∧ Pattern.Matches "^(?:a|<b)+$" false v) ∧
        "<ba" ∈ kept := by
  intro b
  have hshape : (Pattern.shape? "^(?:a|<b)+$" false).isSome = true := by decide
  have hvalid : Pattern.isValid (anchored "^(?:a|<b)+$" false) = true := by decide
  have hdollar : Pattern.withDollar "^(?:a|<b)+$" = "^(?:a|<b)+$" := by decide
  have hread : Pattern.parse? "^(?:a|<b)+$" = some (.concat [
      .assertion .startLine,
      .repetition 1 none true (.group (.plain {}) (.alternation [.literal { char := 'a' },
        .concat [.literal { char := '<' }, .literal { char := 'b' }]])),
      .assertion .endLine]) := rfl
  refine ⟨hshape, hvalid, hdollar, ?_⟩
  obtain ⟨kept, why, hrefine, hkept, hagree⟩ :=
    Branch.refine_known (b := b) (g := .oneOf (.ofList ["<ba", "<a"])) rfl rfl rfl hshape hvalid
      hdollar hread (by decide)
  refine ⟨kept, why, hrefine, fun v hv => ⟨hkept v hv, ?_⟩, ?_⟩
  · exact (hagree v (hkept v hv) (.inr (by decide))).1 hv
  · refine (hagree "<ba" (by decide) (.inr (by decide))).2 ?_
      (.inr (.inr (by decide)))
    refine ⟨_, (congrArg Pattern.parse? hdollar).trans hread, 0, 3, Nat.zero_le _, 0,
      ⟨rfl, .inl (by decide)⟩, 3, ⟨2, by decide, nofun, 2, ?_, 3, ?_, rfl⟩, 3, ?_, rfl⟩
    · exact .inr (.inl ⟨1, ⟨'<', by decide⟩, 2, ⟨'b', by decide⟩, rfl⟩)
    · exact .inl ⟨'a', by decide⟩
    · exact ⟨rfl, .inl (by decide)⟩

/-! ## Values with a line end -/

/-- A tag that is one of two allowed texts, checked against a pattern, in the body of a page. -/
def checkedTag : Path :=
  { version := pathVersion
    branches :=
      [{ parent := none, condition := .inAllowList (.ofList ["a", "<b\n"]), outcome := .passed },
        { parent := some 0, condition := .matchesPattern "^(?:a|<b)$" false, outcome := .passed }]
    steps :=
      [⟨.source (.ofText "tag"), none⟩, ⟨.guard 0, some 0⟩, ⟨.guard 1, some 1⟩,
        ⟨.sink .htmlBody, some 1⟩] }

/-- A passed search drops a known value that matches it, because a line end is behind the match. The
markup in that value then passes for none. -/
theorem Branch.drops_line_end :
    (Pattern.shape? "^(?:a|<b)$" false).isSome = true ∧
      "<b\n" ∈ TextSet.ofList ["a", "<b\n"] ∧
      Pattern.Matches "^(?:a|<b)$" false "<b\n" ∧
      (TextGuarantee.oneOf (.ofList ["a", "<b\n"])).matching "^(?:a|<b)$" false =
        .ok (.oneOf (.ofList ["a"]), "known values filtered by /^(?:a|<b)$/") ∧
      "<b\n" ∉ TextSet.ofList ["a"] ∧
      ((Classifier.ofEntries 5 []).classify checkedTag).outcome = .safe := by
  refine ⟨by decide +kernel, by decide +kernel, ?_, by decide +kernel, by decide +kernel,
    by decide +kernel⟩
  have hread : Pattern.parse? (Pattern.withDollar "^(?:a|<b)$") = some (.concat [
      .assertion .startLine,
      .group (.plain {}) (.alternation [.literal { char := 'a' },
        .concat [.literal { char := '<' }, .literal { char := 'b' }]]),
      .assertion .endLine]) := rfl
  refine ⟨_, hread, 0, 2, Nat.zero_le _, 0, ⟨rfl, .inl (by decide)⟩, 2, ?_, 2, ?_, rfl⟩
  · -- the second choice, one character after the other
    exact .inr (.inl ⟨1, ⟨'<', by decide⟩, 2, ⟨'b', by decide⟩, rfl⟩)
  · exact ⟨rfl, .inr ⟨trivial, rfl, by decide, by decide⟩⟩

end FlowSafety
