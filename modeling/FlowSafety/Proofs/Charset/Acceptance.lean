import FlowSafety.Proofs.Charset.Admits
import FlowSafety.Proofs.Results
import FlowSafety.Proofs.Text.Casing

/-!
# Charsets that a sink accepts

A sink accepts a charset if none of the characters that may occur raw is forbidden. The check looks
at a charset part by part, and its answer is that for the characters as a whole.

The forbidden classes of the sinks hold no letter and no hexadecimal digit. So it costs no
acceptance to round a class to one of these alphabets, and none to map a text to another case.

* `Sink.check_isOk_iff` — what a sink accepts
* `Sink.check_ok_iff_not_intersects` — the check part by part and the class of all characters
* `Charset.avoids_ofClass`, `Charset.avoids_caseMapped` — what keeps a charset accepted
-/

namespace FlowSafety

open CharClass

variable {forbidden : CharClass}

/-! ## Forbidden characters -/

/-- What the forbidden classes of the sinks have in common. -/
structure CharClass.IsMarkup (forbidden : CharClass) : Prop where
  nonempty : forbidden.isEmpty = false
  letterless : forbidden.IsLetterless
  hexDigits : hexDigits.Avoids forbidden

theorem CharClass.IsMarkup.digits (h : forbidden.IsMarkup) : digits.Avoids forbidden :=
  (union_avoids.mp (union_avoids.mp h.hexDigits).1).1

theorem Sink.isMarkup_forbidden {k : Sink} (h : k.forbidden? = some forbidden) :
    forbidden.IsMarkup := by
  have hclass : forbidden.isEmpty = false ∧
      (∀ lower, ((letters lower).inter forbidden).isEmpty = true) ∧
        (CharClass.hexDigits.inter forbidden).isEmpty = true := by
    cases k <;> cases h <;> decide
  exact ⟨hclass.1, fun lower => inter_isEmpty_iff.mp (hclass.2.1 lower),
    inter_isEmpty_iff.mp hclass.2.2⟩

/-! ## Charsets -/

namespace Charset

variable {charset : Charset} {k : CharClass}

/-- A text of which nothing is known may hold every character. -/
theorem not_avoids_unconstrained (hforbidden : forbidden.isEmpty = false) :
    ¬ unconstrained.possible.Avoids forbidden := by
  intro h
  rw [any_avoids_iff.mp h] at hforbidden
  contradiction

/-- The characters that may occur raw in one of some texts are those of the texts. -/
theorem avoids_oneOf {values : TextSet} : (oneOf values).possible.Avoids forbidden ↔
    ∀ v ∈ values, ∀ c ∈ v.toList, forbidden.contains c = false := by
  have hfold : ∀ (vs : List String) (k : CharClass),
      (vs.foldl (fun k v => k.union (.ofText v)) k).Avoids forbidden ↔
        k.Avoids forbidden ∧ ∀ v ∈ vs, ∀ c ∈ v.toList, forbidden.contains c = false := by
    intro vs
    induction vs with
    | nil => exact fun k => ⟨fun h => ⟨h, nofun⟩, And.left⟩
    | cons v vs ih =>
      intro k
      rw [List.foldl_cons, ih, union_avoids, ofText_avoids, List.forall_mem_cons, and_assoc]
  exact (hfold values.toList .empty).trans (and_iff_right empty_avoids)

theorem avoids_ofClass (hforbidden : forbidden.IsMarkup) (hk : k.Avoids forbidden) :
    (ofClass k).possible.Avoids forbidden := by
  unfold ofClass
  split
  · next hany =>
    rw [hany] at hk
    exact hk
  · split
    · exact hforbidden.digits
    · split
      · exact hforbidden.hexDigits
      · exact hk

theorem possible_withPattern (charset : Charset) (pattern : String) :
    (charset.withPattern pattern).possible = charset.possible := by
  cases charset <;> rfl

theorem avoids_caseMapped (hforbidden : forbidden.IsLetterless)
    (h : charset.possible.Avoids forbidden) (lower : Bool) :
    (charset.caseMapped lower).possible.Avoids forbidden := by
  induction charset with
  | format chars _ => exact h.caseMapped hforbidden lower
  | masked chars _ kept unmasked ih =>
    obtain ⟨hchars, hunmasked⟩ := union_avoids.mp h
    exact union_avoids.mpr ⟨hchars.caseMapped hforbidden lower, ih hunmasked⟩
  | oneOf values =>
    refine avoids_oneOf.mpr fun w hw d hd => ?_
    obtain ⟨v, hv, rfl⟩ := TextSet.mem_map.mp hw
    obtain ⟨c, hc, ds, hwritten, hd⟩ := Text.exists_written_of_mem hd
    exact hforbidden.not_contains_image (avoids_oneOf.mp h v hv c hc) hwritten.caseImage hd
  | _ => exact h

end Charset

/-! ## Checks -/

namespace Sink

theorem isOk_ite {p : Prop} [Decidable p] {why whyNot : String} :
    (if p then Except.ok why else Except.error whyNot : Except String String).isOk = true ↔ p := by
  split
  · next h => exact iff_of_true rfl h
  · next h => exact iff_of_false Bool.false_ne_true h

theorem isOk_mapError {x : Except String String} {f : String → String} :
    (x.mapError f).isOk = x.isOk := by
  cases x <;> rfl

/-- A sink accepts a charset if no character that may occur raw is forbidden. -/
theorem check_isOk_iff {charset : Charset} (hforbidden : forbidden.isEmpty = false) :
    (check forbidden charset).isOk = true ↔ charset.possible.Avoids forbidden := by
  induction charset with
  | unconstrained =>
    exact iff_of_false Bool.false_ne_true (Charset.not_avoids_unconstrained hforbidden)
  | masked chars _ kept unmasked ih =>
    rw [Charset.possible, union_avoids, ← inter_isEmpty_iff, ← ih, check]
    -- the check looks at the filler first and then at what the mask keeps
    split
    · next hchars =>
      rw [isOk_mapError]
      exact (and_iff_right hchars).symm
    · next hchars => exact iff_of_false Bool.false_ne_true fun h => hchars h.1
  | _ =>
    rw [← inter_isEmpty_iff]
    exact isOk_ite

end Sink

/-- The check goes through a charset part by part. It accepts the charset exactly if the characters
that may occur raw, taken as one class, do not intersect the forbidden ones, and refuses it exactly
if they do. -/
theorem Sink.check_ok_iff_not_intersects (hforbidden : forbidden.isEmpty = false)
    (charset : Charset) :
    ((∃ why, check forbidden charset = .ok why) ↔
      charset.possible.intersects forbidden = false) ∧
    ((∃ why, check forbidden charset = .error why) ↔
      charset.possible.intersects forbidden = true) := by
  have hok : (check forbidden charset).isOk = true ↔
      charset.possible.intersects forbidden = false :=
    (check_isOk_iff hforbidden).trans intersects_eq_false_iff.symm
  cases hcheck : check forbidden charset with
  | ok why =>
    rw [hcheck] at hok
    have hdisjoint : charset.possible.intersects forbidden = false := hok.mp rfl
    rw [hdisjoint]
    exact ⟨iff_of_true ⟨why, rfl⟩ rfl, iff_of_false nofun nofun⟩
  | error why =>
    rw [hcheck] at hok
    have hcommon : charset.possible.intersects forbidden = true :=
      Bool.not_eq_false _ ▸ mt hok.mpr Bool.false_ne_true
    rw [hcommon]
    exact ⟨iff_of_false nofun nofun, iff_of_true ⟨why, rfl⟩ rfl⟩

/-- The end of a listed text under two masks, the inner one of which fills with some characters
beyond ASCII. -/
def nestedMask : Charset :=
  .masked (.ofText "*") none 8 (.masked ⟨0, .some⟩ none 4 (.oneOf (.ofList ["a<b", "c"])))

/-- A listed text has a `<`, and no part has a round bracket. -/
theorem Sink.check_nestedMask :
    (CharClass.ofText "()").isEmpty = false ∧ (∃ why, check (.ofText "()") nestedMask = .ok why) ∧
      (CharClass.ofText "<>").isEmpty = false ∧
      ∃ why, check (.ofText "<>") nestedMask = .error why := by
  have hround : (CharClass.ofText "()").isEmpty = false := by decide
  have hangle : (CharClass.ofText "<>").isEmpty = false := by decide
  exact ⟨hround, (check_ok_iff_not_intersects hround nestedMask).1.mpr (by decide), hangle,
    (check_ok_iff_not_intersects hangle nestedMask).2.mpr (by decide)⟩

/-- Nothing intersects the empty class, but the check refuses a raw text for it all the same. -/
example : (∃ why, Sink.check .empty .unconstrained = .error why) ∧
    Charset.unconstrained.possible.intersects .empty = false :=
  ⟨⟨_, rfl⟩, by decide⟩

end FlowSafety
