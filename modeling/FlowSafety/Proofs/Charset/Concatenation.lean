import FlowSafety.Proofs.Charset.Acceptance
import FlowSafety.Proofs.Walk.Summary

/-!
# Charsets of concatenations

The charset of a concatenation is the same in both orders, and allows for every character that may
occur raw in one of the parts. If it is an escaping, no part has a character that the escaping
neutralizes.

A sink that accepts both parts should accept the whole, since the whole has the characters of the
parts. It does unless an escaping is given up. Two escapings are both given up if neither context
covers the other, and then nothing is known of the whole, even if one of them leaves an alphabet
without any character that the other one neutralizes. The same alphabet, known as a class, does no
harm.

* `Charset.concat_induction` — the kinds of concatenation
* `Charset.concat_symmetric_and_sound` — the order of the parts and their characters
* `Charset.Blends` — when no escaping is given up
* `accepted_concat_iff` — what a sink accepts
* `encoded_beside_entities_refused` — two escapings that are given up
-/

namespace FlowSafety

open CharClass

variable {forbidden : CharClass} {x y : EscapeContext}

theorem NonAscii.union_comm (m n : NonAscii) : m.union n = n.union m := by
  cases m <;> cases n <;> rfl

theorem CharClass.union_comm (k l : CharClass) : k.union l = l.union k := by
  rw [union, union, BitVec.or_comm, NonAscii.union_comm]

/-- A text that is escaped for a covering context has nothing that the covered one neutralizes. -/
theorem EscapeContext.avoids_of_covers (h : x.covers y = true) :
    (Charset.escaped x).possible.Avoids y.neutralized :=
  fun c hc => neutralized_of_covers h (x.possible_avoids_neutralized c hc)

namespace Charset

variable {a b : Charset}

/-! ## Kinds of concatenation -/

/-- Neither unknown nor escaped. -/
def isPlain : Charset → Bool
  | .unconstrained | .escaped _ => false
  | _ => true

theorem form (a : Charset) : a = .unconstrained ∨ (∃ x, a = .escaped x) ∨ a.isPlain = true := by
  cases a with
  | unconstrained => exact .inl rfl
  | escaped x => exact .inr (.inl ⟨x, rfl⟩)
  | _ => exact .inr (.inr rfl)

theorem ne_escaped_of_plain (ha : a.isPlain = true) (x : EscapeContext) : a ≠ .escaped x := by
  rintro rfl
  contradiction

theorem unconstrained_concat (a : Charset) : unconstrained.concat a = .unconstrained := rfl

theorem concat_unconstrained (a : Charset) : a.concat .unconstrained = .unconstrained := by
  cases a <;> rfl

theorem escaped_concat_plain (hb : b.isPlain = true) :
    (escaped x).concat b = besideEscaped x b := by
  cases b with
  | unconstrained | escaped _ => contradiction
  | _ => rfl

theorem plain_concat_escaped (ha : a.isPlain = true) :
    a.concat (escaped x) = besideEscaped x a := by
  cases a with
  | unconstrained | escaped _ => contradiction
  | _ => rfl

theorem plain_concat_plain (ha : a.isPlain = true) (hb : b.isPlain = true) :
    a.concat b = ofClass (a.possible.union b.possible) := by
  cases a with
  | unconstrained | escaped _ => contradiction
  | _ =>
    cases b with
    | unconstrained | escaped _ => contradiction
    | _ => rfl

/-- A symmetric property of two charsets and their concatenation is proved for a text of which
nothing is known, for two escaped texts, for an escaped one beside a plain one, and for two plain
ones. -/
theorem concat_induction {P : Charset → Charset → Charset → Prop}
    (symm : ∀ {a b r}, P a b r → P b a r) (unknown : ∀ b, P .unconstrained b .unconstrained)
    (escapings : ∀ x y, P (.escaped x) (.escaped y)
      (if x.covers y then .escaped y else if y.covers x then .escaped x else .unconstrained))
    (beside : ∀ x b, b.isPlain = true → P (.escaped x) b (besideEscaped x b))
    (plain : ∀ a b, a.isPlain = true → b.isPlain = true →
      P a b (ofClass (a.possible.union b.possible))) (a b : Charset) : P a b (a.concat b) := by
  rcases a.form with rfl | ⟨x, rfl⟩ | ha
  · exact unknown b
  · rcases b.form with rfl | ⟨y, rfl⟩ | hb
    · exact symm (unknown _)
    · exact escapings x y
    · rw [escaped_concat_plain hb]
      exact beside x b hb
  · rcases b.form with rfl | ⟨y, rfl⟩ | hb
    · rw [concat_unconstrained]
      exact symm (unknown a)
    · rw [plain_concat_escaped ha]
      exact symm (beside y a ha)
    · rw [plain_concat_plain ha hb]
      exact plain a b ha hb

/-! ## Order and characters -/

/-- The order of the parts does not matter. -/
theorem concat_comm (a b : Charset) : a.concat b = b.concat a := by
  rcases a.form with rfl | ⟨x, rfl⟩ | ha
  · rw [unconstrained_concat, concat_unconstrained]
  · rcases b.form with rfl | ⟨y, rfl⟩ | hb
    · rw [unconstrained_concat, concat_unconstrained]
    · -- both are asked whether they cover the other, and two that do are equal
      cases x <;> cases y <;> rfl
    · rw [escaped_concat_plain hb, plain_concat_escaped hb]
  · rcases b.form with rfl | ⟨y, rfl⟩ | hb
    · rw [unconstrained_concat, concat_unconstrained]
    · rw [escaped_concat_plain ha, plain_concat_escaped ha]
    · rw [plain_concat_plain ha hb, plain_concat_plain hb ha, CharClass.union_comm]

theorem ofClass_ne_escaped (k : CharClass) (x : EscapeContext) : ofClass k ≠ .escaped x := by
  unfold ofClass
  split
  · nofun
  · split
    · nofun
    · split <;> nofun

/-- A concatenation is escaped only if no part has a character that the escaping neutralizes. -/
theorem avoids_of_concat_eq_escaped {context : EscapeContext} (h : a.concat b = .escaped context) :
    a.possible.Avoids context.neutralized ∧ b.possible.Avoids context.neutralized := by
  revert h
  refine concat_induction (P := fun a b r => r = .escaped context →
    a.possible.Avoids context.neutralized ∧ b.possible.Avoids context.neutralized)
    ?symm ?unknown ?escapings ?beside ?plain a b
  case symm =>
    intro a b r h hr
    exact (h hr).symm
  case unknown =>
    intro b hr
    contradiction
  case escapings =>
    intro x y hr
    -- the escaping that is kept is the covered one
    split at hr
    · next hcovers =>
      obtain rfl := escaped.inj hr
      exact ⟨EscapeContext.avoids_of_covers hcovers, y.possible_avoids_neutralized⟩
    · split at hr
      · next hcovers =>
        obtain rfl := escaped.inj hr
        exact ⟨x.possible_avoids_neutralized, EscapeContext.avoids_of_covers hcovers⟩
      · contradiction
  case beside =>
    intro x b _ hr
    unfold besideEscaped at hr
    split at hr
    · contradiction
    · next hdisjoint =>
      obtain rfl := escaped.inj hr
      exact ⟨x.possible_avoids_neutralized,
        intersects_eq_false_iff.mp (Bool.not_eq_true _ ▸ hdisjoint)⟩
  case plain =>
    intro a b _ _ hr
    exact absurd hr (ofClass_ne_escaped _ _)

/-- A concatenation is the same in both orders, loses no character of its parts, and is escaped only
if no part has a character that the escaping neutralizes. -/
theorem concat_symmetric_and_sound (a b : Charset) :
    a.concat b = b.concat a ∧
    (∀ c, a.possible.contains c = true ∨ b.possible.contains c = true →
      (a.concat b).possible.contains c = true) ∧
    ∀ x, a.concat b = .escaped x →
      a.possible.intersects x.neutralized = false ∧
        b.possible.intersects x.neutralized = false := by
  refine ⟨concat_comm a b, ?_, ?_⟩
  · intro c hc
    exact (admits_concat hc).possible
  · intro x h
    obtain ⟨ha, hb⟩ := avoids_of_concat_eq_escaped h
    exact ⟨intersects_eq_false_iff.mpr ha, intersects_eq_false_iff.mpr hb⟩

/-- The end of a number under two masks, one of which fills with a letter beyond ASCII, leaves the
attribute beside it escaped. The letter brings all characters beyond ASCII. -/
theorem concat_symmetric_and_sound_maskedNumber :
    let number : Charset := .masked (.ofText "*") none 8 (.masked (.ofText "é") none 4 .digits)
    (escaped .htmlAttribute).concat number = .escaped .htmlAttribute ∧
      number.concat (escaped .htmlAttribute) = .escaped .htmlAttribute ∧
      number.possible.contains 'ö' = true ∧
      ((escaped .htmlAttribute).concat number).possible.contains 'ö' = true ∧
      number.possible.intersects EscapeContext.htmlAttribute.neutralized = false := by
  intro number
  have hescaped : (escaped .htmlAttribute).concat number = .escaped .htmlAttribute := by decide
  have hletter : number.possible.contains 'ö' = true := by decide
  obtain ⟨hsymm, hletters, hclear⟩ := concat_symmetric_and_sound (escaped .htmlAttribute) number
  exact ⟨hescaped, hsymm.symm.trans hescaped, hletter, hletters 'ö' (.inr hletter),
    (hclear .htmlAttribute hescaped).2⟩

/-! ## Escapings that are kept -/

/-- Beside a text with the charset, one that is escaped for the context leaves the whole escaped. -/
def leavesEscaped : Charset → EscapeContext → Bool
  | .escaped other, context => context.covers other || other.covers context
  | other, context => !other.possible.intersects context.neutralized

/-- No escaping is given up if texts with the two charsets stand side by side. -/
def Blends (a b : Charset) : Prop :=
  (∀ x, a = .escaped x → b.leavesEscaped x = true) ∧
    ∀ x, b = .escaped x → a.leavesEscaped x = true

theorem Blends.symm (h : a.Blends b) : b.Blends a := And.symm h

theorem blends_comm : a.Blends b ↔ b.Blends a := ⟨Blends.symm, Blends.symm⟩

theorem leavesEscaped_of_plain (ha : a.isPlain = true) (x : EscapeContext) :
    a.leavesEscaped x = !a.possible.intersects x.neutralized := by
  cases a with
  | unconstrained | escaped _ => contradiction
  | _ => rfl

theorem blends_escapings :
    (escaped x).Blends (escaped y) ↔ x.covers y = true ∨ y.covers x = true := by
  rw [← Bool.or_eq_true]
  constructor
  · intro h
    exact h.1 x rfl
  · intro h
    constructor
    · intro z hz
      obtain rfl := escaped.inj hz
      exact h
    · intro z hz
      obtain rfl := escaped.inj hz
      exact (Bool.or_comm _ _).trans h

theorem blends_escaped_plain (hb : b.isPlain = true) :
    (escaped x).Blends b ↔ b.possible.intersects x.neutralized = false := by
  rw [← Bool.not_eq_true', ← leavesEscaped_of_plain hb]
  constructor
  · intro h
    exact h.1 x rfl
  · intro h
    constructor
    · intro z hz
      obtain rfl := escaped.inj hz
      exact h
    · intro z hz
      exact absurd hz (ne_escaped_of_plain hb z)

theorem blends_plain (ha : a.isPlain = true) (hb : b.isPlain = true) : a.Blends b :=
  ⟨fun z hz => absurd hz (ne_escaped_of_plain ha z),
    fun z hz => absurd hz (ne_escaped_of_plain hb z)⟩

/-! ## Acceptance -/

/-- A class may be rounded and an escaping may be that of either part without a forbidden character
coming in. Only where an escaping is given up, any character may occur. -/
theorem avoids_concat_iff (hforbidden : forbidden.IsMarkup) (ha : a.possible.Avoids forbidden)
    (hb : b.possible.Avoids forbidden) :
    (a.concat b).possible.Avoids forbidden ↔ a.Blends b := by
  have hunknown := not_avoids_unconstrained hforbidden.nonempty
  revert ha hb
  refine concat_induction (P := fun a b r => a.possible.Avoids forbidden →
    b.possible.Avoids forbidden → (r.possible.Avoids forbidden ↔ a.Blends b))
    ?symm ?unknown ?escapings ?beside ?plain a b
  case symm =>
    intro a b r h hb ha
    exact (h ha hb).trans blends_comm
  case unknown =>
    intro b ha _
    exact absurd ha hunknown
  case escapings =>
    intro x y ha hb
    rw [blends_escapings]
    split
    · next hcovers => exact iff_of_true hb (.inl hcovers)
    · next hcovers =>
      split
      · next hcovers' => exact iff_of_true ha (.inr hcovers')
      · next hcovers' => exact iff_of_false hunknown (not_or.mpr ⟨hcovers, hcovers'⟩)
  case beside =>
    intro x b hb ha _
    rw [blends_escaped_plain hb, besideEscaped]
    split
    · next hcommon => exact iff_of_false hunknown (Bool.not_eq_false _ ▸ hcommon)
    · next hdisjoint => exact iff_of_true ha (Bool.not_eq_true _ ▸ hdisjoint)
  case plain =>
    intro a b ha hb havoids havoids'
    -- the alphabets that a class is rounded to are free of markup
    have hclass := avoids_ofClass hforbidden (union_avoids.mpr ⟨havoids, havoids'⟩)
    exact iff_of_true hclass (blends_plain ha hb)

end Charset

/-- A sink that accepts two texts accepts their concatenation, exactly if no escaping is given up:
an escaped text stands beside one that is escaped for a covering or a covered context, or beside one
without any character that the escaping neutralizes. -/
theorem accepted_concat_iff {k : Sink} {a b : Charset} (hforbidden : k.forbidden? = some forbidden)
    (ha : (Sink.check forbidden a).isOk = true) (hb : (Sink.check forbidden b).isOk = true) :
    (Sink.check forbidden (a.concat b)).isOk = true ↔ a.Blends b := by
  have hmarkup := Sink.isMarkup_forbidden hforbidden
  rw [Sink.check_isOk_iff hmarkup.nonempty] at ha hb ⊢
  exact Charset.avoids_concat_iff hmarkup ha hb

/-- The family of a font, of which only the end is shown. -/
def maskedFont : Charset := .masked (.ofText "x") none 7 (.oneOf (.ofList ["Arial 9", "Times"]))

/-- The escaping for a style sheet neutralizes no character of the font, so a text that is escaped
for a style sheet stays so beside it. -/
theorem accepted_concat_maskedFont :
    let forbidden := CharClass.ofText "<>&\"'()\x7b\x7d;/\n\r"
    Sink.cssValue.forbidden? = some forbidden ∧
      (Sink.check forbidden (.escaped .css)).isOk = true ∧
      (Sink.check forbidden maskedFont).isOk = true ∧
      (Sink.check forbidden ((Charset.escaped .css).concat maskedFont)).isOk = true := by
  intro forbidden
  have hcss : (Sink.check forbidden (.escaped .css)).isOk = true := by decide
  have hfont : (Sink.check forbidden maskedFont).isOk = true := by decide
  have hblends : (Charset.escaped .css).Blends maskedFont :=
    (Charset.blends_escaped_plain rfl).mpr (by decide)
  exact ⟨rfl, hcss, hfont, (accepted_concat_iff (k := .cssValue) rfl hcss hfont).mpr hblends⟩

/-! ## Different escapings -/

/-- A search in the body of a page, escaped for HTML first. -/
def writtenQuery (steps : List Step) : Path :=
  { version := pathVersion
    branches := []
    steps :=
      [⟨.source (.ofText "query"), none⟩, ⟨.string "escapeHtml" [], none⟩] ++ steps ++
        [⟨.sink .htmlBody, none⟩] }

def queryWriting : Classifier :=
  .ofEntries 5 [("escapeHtml", .text (.escape .html)),
    ("URLEncoder.encode", .text (.escape .url)), ("concat", .text (.passThrough none))]

/-- The body of a page accepts percent encoded text and text with entities, and refuses one beside
the other, although the encoded text has no character that a text with entities may not have. If
its alphabet is known as a class, the whole is accepted. -/
theorem encoded_beside_entities_refused :
    let forbidden := CharClass.ofText "<>&\"'"
    let alphabet := CharClass.urlUnreserved.union (.ofText "%+")
    let encode : Step := ⟨.string "URLEncoder.encode" [], none⟩
    let join : Step := ⟨.string "concat" [.current, .step 1], none⟩
    (Sink.htmlBody.forbidden? = some forbidden ∧
      (Sink.check forbidden (.escaped .url)).isOk = true ∧
      (Sink.check forbidden (.escaped .html)).isOk = true ∧
      Sink.check forbidden ((Charset.escaped .url).concat (.escaped .html)) =
        .error "no guarantee was established for the value") ∧
    ((Charset.escaped .url).possible = (Charset.format alphabet none).possible ∧
      (Charset.format alphabet none).concat (.escaped .html) = .escaped .html) ∧
    (queryWriting.classify (writtenQuery [])).outcome = .safe ∧
      (queryWriting.classify (writtenQuery [encode])).outcome = .safe ∧
      (queryWriting.classify (writtenQuery [encode, join])).outcome = .unsafeFlow := by
  intro forbidden alphabet encode join
  exact ⟨⟨rfl, by decide, by decide, rfl⟩, ⟨rfl, by decide⟩, by decide +kernel, by decide +kernel,
    by decide +kernel⟩

end FlowSafety
