import FlowSafety.Proofs.Charset.Acceptance
import FlowSafety.Proofs.Walk.Summary

/-!
# Guards on accepted texts

A passed guard only adds to what is known of a text, so a sink that accepted the text before should
accept it behind the guard. For a pattern that is so: it keeps an escaping that it does not replace
by something as strict, and cuts every other charset down. For an allow list it is so where the
values were known. Where they were not, the list takes the place of the charset, and what the sink
says of the listed texts is all that counts.

* `Charset.avoids_confined` — a pattern keeps a charset accepted
* `Branch.refine_accepted_iff` — which passed guards keep a charset accepted
* `listed_entity_refused` — an allow list that costs an escaped text its acceptance
-/

namespace FlowSafety

open CharClass

variable {forbidden : CharClass}

/-- The known values are written in characters that may occur raw. -/
def TextGuarantee.IsDrawn (g : TextGuarantee) : Prop :=
  ∀ known, g.values = some known → ∀ v ∈ known, ∀ c ∈ v.toList,
    g.charset.possible.contains c = true

theorem TextGuarantee.isDrawn_oneOf (values : TextSet) : (oneOf values).IsDrawn := by
  intro known hknown v hv c hc
  obtain rfl := Option.some.inj hknown
  exact Charset.contains_foldl_union (.inr ⟨v, hv, hc⟩)

/-! ## Patterns -/

/-- A pattern leaves no character that was not there before, unless it rounds the class to an
alphabet that every sink accepts. -/
theorem Charset.avoids_confined {charset : Charset} (hforbidden : forbidden.IsMarkup)
    (h : charset.possible.Avoids forbidden) (chars : CharClass) (pattern : String) :
    (charset.confined chars pattern).possible.Avoids forbidden := by
  have hclass {k : CharClass} (hk : k.Avoids forbidden) :
      ((ofClass k).withPattern pattern).possible.Avoids forbidden := by
    rw [possible_withPattern]
    exact avoids_ofClass hforbidden hk
  unfold confined
  split
  · next context =>
    split
    · split
      · exact h
      · next hdisjoint =>
        -- what the context does not neutralize may occur in the escaped text, so it is accepted
        refine hclass fun c hc => h c (EscapeContext.contains_possible ?_)
        exact not_contains_of_not_intersects (Bool.not_eq_true _ ▸ hdisjoint) hc
    · exact hclass (h.inter chars)
  · exact hclass (h.inter chars)

theorem TextGuarantee.matching_avoids {g g' : TextGuarantee} {pattern why : String} {full : Bool}
    (hforbidden : forbidden.IsMarkup) (hdrawn : g.IsDrawn)
    (h : g.charset.possible.Avoids forbidden) (hmatching : g.matching pattern full = .ok (g', why)) :
    g'.charset.possible.Avoids forbidden := by
  unfold matching at hmatching
  split at hmatching
  · next known hknown =>
    split at hmatching
    · cases hmatching
      refine Charset.avoids_oneOf.mpr fun v hv c hc => h c ?_
      exact hdrawn known hknown v (List.mem_filter.mp hv).1 c hc
    · contradiction
  · split at hmatching
    · cases hmatching
      exact Charset.avoids_confined hforbidden h _ pattern
    · cases hmatching
      exact h

/-! ## Allow lists -/

/-- Behind an allow list the charset is that of the listed texts, of which the known values are left
if they are known. -/
theorem TextGuarantee.within_avoids_iff {g : TextGuarantee} {listed : TextSet} (hdrawn : g.IsDrawn)
    (h : g.charset.possible.Avoids forbidden) :
    (g.within listed).charset.possible.Avoids forbidden ↔
      (g.values = none → ∀ v ∈ listed, ∀ c ∈ v.toList, forbidden.contains c = false) := by
  unfold within
  show (Charset.oneOf _).possible.Avoids forbidden ↔ _
  rw [Charset.avoids_oneOf]
  cases hvalues : g.values with
  | some known =>
    refine iff_of_true (fun v hv c hc => h c ?_) nofun
    exact hdrawn known hvalues v (List.mem_filter.mp hv).1 c hc
  | none => exact ⟨fun h _ => h, fun h => h rfl⟩

/-! ## Guards -/

/-- A sink that accepts a text accepts it behind a passed guard, unless the guard is an allow list
on a text whose values are not known, and a listed text holds a forbidden character. -/
theorem Branch.refine_accepted_iff {b : Branch} {g : TextGuarantee} {v : Value} {why : String}
    {k : Sink} (hpassed : b.outcome = .passed) (hguard : b.refine (.text g) = .ok (v, why))
    (hdrawn : g.IsDrawn) (hforbidden : k.forbidden? = some forbidden)
    (haccepted : (Sink.check forbidden g.charset).isOk = true) :
    ∃ g', v = .text g' ∧ ((Sink.check forbidden g'.charset).isOk = true ↔
      ∀ listed, b.condition = .inAllowList listed → g.values = none →
        ∀ t ∈ listed, ∀ c ∈ t.toList, forbidden.contains c = false) := by
  have hmarkup := Sink.isMarkup_forbidden hforbidden
  have haccepts {charset : Charset} :
      (Sink.check forbidden charset).isOk = true ↔ charset.possible.Avoids forbidden :=
    Sink.check_isOk_iff hmarkup.nonempty
  rw [haccepts] at haccepted
  simp only [haccepts]
  unfold refine at hguard
  cases hcondition : b.condition with
  | compare c bound =>
    rw [hcondition] at hguard
    contradiction
  | matchesPattern pattern full =>
    rw [hcondition] at hguard
    simp only [hpassed, if_true] at hguard
    obtain ⟨⟨g', why'⟩, hmatching, hresult⟩ := map_eq_ok.mp hguard
    cases hresult
    exact ⟨g', rfl, iff_of_true (TextGuarantee.matching_avoids hmarkup hdrawn haccepted hmatching)
      nofun⟩
  | inAllowList listed =>
    rw [hcondition] at hguard
    simp only [hpassed, if_true] at hguard
    cases hguard
    refine ⟨g.within listed, rfl, (TextGuarantee.within_avoids_iff hdrawn haccepted).trans ?_⟩
    exact ⟨fun h _ hlisted => by cases hlisted; exact h, fun h => h listed rfl⟩

/-- The end of a text that was escaped for HTML, behind a mask. -/
def maskedTag : TextGuarantee :=
  { charset := .masked (.ofText "*") none 4 (.escaped .html), maxLength := some 12 }

/-- A pattern that could take a `<` costs the masked text nothing: what is left are the characters
that may occur raw and that the pattern takes. -/
theorem Branch.refine_accepted_maskedTag :
    let pattern := "[*]{0,8}<?[a-z]{1,4}"
    let b : Branch :=
      { parent := none, condition := .matchesPattern pattern true, outcome := .passed }
    let g' : TextGuarantee :=
      { charset := .format ((CharClass.ofText "*").union (.ofRange 'a' 'z')) (some pattern)
        maxLength := some 12 }
    maskedTag.IsDrawn ∧ (Sink.check (.ofText "<>&\"'") maskedTag.charset).isOk = true ∧
      b.refine (.text maskedTag) = .ok (.text g', s!"validated against /{pattern}/") ∧
        (Sink.check (.ofText "<>&\"'") g'.charset).isOk = true := by
  intro pattern b g'
  have hdrawn : maskedTag.IsDrawn := nofun
  have haccepted : (Sink.check (.ofText "<>&\"'") maskedTag.charset).isOk = true := by decide
  have hguard : b.refine (.text maskedTag) =
      .ok (.text g', s!"validated against /{pattern}/") := by
    decide +kernel
  obtain ⟨g'', heq, hiff⟩ :=
    Branch.refine_accepted_iff (k := .htmlBody) rfl hguard hdrawn rfl haccepted
  obtain rfl : g' = g'' := by injection heq
  exact ⟨hdrawn, haccepted, hguard, hiff.mpr nofun⟩

/-! ## Listed entities -/

/-- A text that is escaped for HTML, in the body of a page. -/
def escapedMark : Path :=
  { version := pathVersion
    branches := []
    steps :=
      [⟨.source (.ofText "tag"), none⟩, ⟨.string "escapeHtml" [], none⟩,
        ⟨.sink .htmlBody, none⟩] }

/-- The escaped text behind an allow list with an entity, as escaping writes it. -/
def listedMark : Path :=
  { version := pathVersion
    branches :=
      [{ parent := none, condition := .inAllowList (.ofList ["&lt;"]), outcome := .passed }]
    steps :=
      [⟨.source (.ofText "tag"), none⟩, ⟨.string "escapeHtml" [], none⟩, ⟨.guard 0, some 0⟩,
        ⟨.sink .htmlBody, some 0⟩] }

/-- A passed allow list costs an escaped text its acceptance, because a listed text is written with
the mark of an entity. -/
theorem listed_entity_refused :
    let b : Branch :=
      { parent := none, condition := .inAllowList (.ofList ["&lt;"]), outcome := .passed }
    let g : TextGuarantee := { charset := .escaped .html }
    g.IsDrawn ∧ (Sink.check (.ofText "<>&\"'") g.charset).isOk = true ∧
      b.refine (.text g) =
        .ok (.text (.oneOf (.ofList ["&lt;"])), "value is a member of the allow-list") ∧
      (Sink.check (.ofText "<>&\"'") (.oneOf (.ofList ["&lt;"]))).isOk = false ∧
      ((Classifier.ofEntries 5 [("escapeHtml", .text (.escape .html))]).classify
        escapedMark).outcome = .safe ∧
      ((Classifier.ofEntries 5 [("escapeHtml", .text (.escape .html))]).classify
        listedMark).outcome = .unsafeFlow := by
  intro b g
  exact ⟨nofun, by decide, by decide, by decide, by decide +kernel, by decide +kernel⟩

end FlowSafety
