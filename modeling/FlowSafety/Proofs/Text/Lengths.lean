import FlowSafety.Proofs.Text.Mapped
import FlowSafety.Proofs.Text.Steps

/-!
# Lengths of built texts

A text is built from others by operations and concatenations, and what is known about it is built in
parallel. The known length then bounds the length of the text, but for one gap: a case mapping takes
a text for ASCII if its charset is, and the charset leaves literals out. A literal beyond ASCII, such
as a sharp s, may become longer, and the known length does not.

* `TextExpr` — how a text is built
* `TextExpr.Steady` — no text becomes longer that a case mapping takes for ASCII
* `TextExpr.bounds` — what is known about the length and the value of a steady text is true
* `TextExpr.steady_and_covered` — a text is steady if its literals are ASCII
* `length_le_maxLength` — when the known length bounds the length
* `longer_than_maxLength` — a literal that makes a text longer than its known length
-/

namespace FlowSafety

open CharClass

/-! ## Built texts -/

/-- How a text is built. -/
inductive TextExpr where
  /-- A text, and what is known about it. -/
  | start (g : TextGuarantee) (t : String)
  /-- An operation on a built text. -/
  | step (e : TextExpr) (s : TextStep)
  /-- Two built texts, one behind the other. -/
  | concat (e f : TextExpr)

namespace TextExpr

/-- What is known about the built text. -/
def guarantee : TextExpr → TextGuarantee
  | .start g _ => g
  | .step e s => s.guarantee e.guarantee
  | .concat e f => e.guarantee.concat f.guarantee

/-- The built text. -/
def text : TextExpr → String
  | .start _ t => t
  | .step e s => s.text e.text
  | .concat e f => e.text ++ f.text

/-- The constant texts that are put beside others. -/
def literals : TextExpr → List String
  | .start _ _ => []
  | .step e s => s.literal?.toList ++ e.literals
  | .concat e f => e.literals ++ f.literals

/-- Every text that the built one starts from has the property. -/
def Starts (P : TextGuarantee → String → Prop) : TextExpr → Prop
  | .start g t => P g t
  | .step e _ => e.Starts P
  | .concat e f => e.Starts P ∧ f.Starts P

/-- No text becomes longer that is taken for ASCII when its case is mapped. -/
def Steady : TextExpr → Prop
  | .start _ _ => True
  | .step e s => e.Steady ∧ (s.isCaseMap = true → e.guarantee.values = none →
      e.guarantee.charset.possible.hasNonAscii = false → (s.text e.text).length ≤ e.text.length)
  | .concat e f => e.Steady ∧ f.Steady

end TextExpr

/-! ## Bounds -/

theorem TextGuarantee.Bounds.step {g : TextGuarantee} {t : String} {s : TextStep} (h : g.Bounds t)
    (hsteady : s.isCaseMap = true → g.values = none → g.charset.possible.hasNonAscii = false →
      (s.text t).length ≤ t.length) : (s.guarantee g).Bounds (s.text t) := by
  cases s with
  | truncate length => exact h.truncate length
  | prepend literal => exact h.prepend literal
  | append literal => exact h.append literal
  | caseMap lower => exact h.caseMapped (hsteady rfl)

namespace TextExpr

variable {e : TextExpr} {P Q : TextGuarantee → String → Prop}

theorem Starts.mono (h : e.Starts P) (hPQ : ∀ {g t}, P g t → Q g t) : e.Starts Q := by
  induction e with
  | start g t => exact hPQ h
  | step e s ih => exact ih h
  | concat e f ihe ihf => exact ⟨ihe h.1, ihf h.2⟩

/-- What is known about the length and the value of a steady text is true. -/
theorem bounds (hstarts : e.Starts TextGuarantee.Bounds) (hsteady : e.Steady) :
    e.guarantee.Bounds e.text := by
  induction e with
  | start g t => exact hstarts
  | step e s ih => exact (ih hstarts hsteady.1).step hsteady.2
  | concat e f ihe ihf => exact (ihe hstarts.1 hsteady.1).concat (ihf hstarts.2 hsteady.2)

end TextExpr

/-! ## ASCII literals -/

namespace TextGuarantee

variable {g h : TextGuarantee} {s : TextStep} {t u : String}

/-- The charset shows every character of the text that is not ASCII. -/
def Covered (g : TextGuarantee) (t : String) : Prop :=
  ∀ c ∈ t.toList, c.toNat < 128 ∨ g.charset.Shows c

/-- Where no character beyond ASCII may occur raw, a text that is covered is ASCII. -/
theorem Covered.ascii (ht : g.Covered t) (hascii : g.charset.possible.hasNonAscii = false) :
    ∀ c ∈ t.toList, c.toNat < 128 :=
  fun c hc => (ht c hc).elim id (ascii_of_shows hascii)

theorem Covered.concat (ht : g.Covered t) (hu : h.Covered u) :
    (g.concat h).Covered (t ++ u) := by
  intro c hc
  rw [String.toList_append] at hc
  rcases List.mem_append.mp hc with hc | hc
  · exact (ht c hc).imp_right fun hshows => (Charset.admits_concat (.inl hshows.possible)).shows
  · exact (hu c hc).imp_right fun hshows => (Charset.admits_concat (.inr hshows.possible)).shows

theorem Covered.caseMapped {lower : Bool} (ht : g.Covered t) (hvalue : ∀ vs ∈ g.values, t ∈ vs) :
    (g.caseMapped lower).Covered (Text.mapCase lower t) := by
  intro d hd
  obtain ⟨c, hc, ds, hwritten, hdds, hmapped⟩ := exists_shows_caseMapped hvalue hd
  refine (ht c hc).imp (fun hascii => ?_) hmapped
  cases hwritten.caseImage with
  | ascii _ =>
    obtain rfl := List.mem_singleton.mp hdds
    exact asciiImage_lt lower hascii
  | wide hwide _ => contradiction

theorem Covered.step (ht : g.Covered t) (hvalue : ∀ vs ∈ g.values, t ∈ vs)
    (hliteral : ∀ literal ∈ s.literal?, ∀ c ∈ literal.toList, c.toNat < 128) :
    (s.guarantee g).Covered (s.text t) := by
  cases hs : s.isCaseMap with
  | true =>
    cases s with
    | caseMap lower => exact ht.caseMapped hvalue
    | _ => contradiction
  | false =>
    intro c hc
    rw [charset_guarantee hs]
    rcases TextStep.mem_text hs hc with hc | ⟨literal, hl, hc⟩
    · exact ht c hc
    · exact .inl (hliteral literal hl c hc)

end TextGuarantee

namespace TextExpr

variable {e : TextExpr}

/-- A text whose literals are ASCII is covered, so only ASCII is taken for ASCII. -/
theorem steady_and_covered (hstarts : e.Starts TextGuarantee.Allows)
    (hliterals : ∀ literal ∈ e.literals, ∀ c ∈ literal.toList, c.toNat < 128) :
    e.Steady ∧ e.guarantee.Covered e.text := by
  induction e with
  | start g t => exact ⟨trivial, fun c hc => .inr (hstarts.chars c hc).shows⟩
  | step e s ih =>
    obtain ⟨hsteady, hcovered⟩ :=
      ih hstarts fun literal hl => hliterals literal (List.mem_append_right _ hl)
    have hbounds : e.guarantee.Bounds e.text :=
      bounds (Starts.mono hstarts TextGuarantee.Allows.bounds) hsteady
    refine ⟨⟨hsteady, fun hcase _ hascii => ?_⟩, hcovered.step hbounds.value fun literal hl => ?_⟩
    · cases s with
      | caseMap lower => exact Nat.le_of_eq (Text.length_mapCase_of_ascii (hcovered.ascii hascii))
      | _ => contradiction
    · exact hliterals literal (List.mem_append_left _ (Option.mem_toList.mpr hl))
  | concat e f ihe ihf =>
    obtain ⟨hsteady, hcovered⟩ :=
      ihe hstarts.1 fun literal hl => hliterals literal (List.mem_append_left _ hl)
    obtain ⟨hsteady', hcovered'⟩ :=
      ihf hstarts.2 fun literal hl => hliterals literal (List.mem_append_right _ hl)
    exact ⟨⟨hsteady, hsteady'⟩, hcovered.concat hcovered'⟩

end TextExpr

/-- The known length of a built text bounds its length, if no text becomes longer that a case
mapping takes for ASCII. None does if the literals are ASCII and every charset that lists values
lists the characters of the text. -/
theorem length_le_maxLength {e : TextExpr} (hstarts : e.Starts TextGuarantee.Describes) :
    (e.Steady → ∀ n, e.guarantee.maxLength = some n → e.text.length ≤ n) ∧
    (e.Starts TextGuarantee.Allows →
      (∀ literal ∈ e.literals, ∀ c ∈ literal.toList, c.toNat < 128) → e.Steady) := by
  refine ⟨fun hsteady => ?_, fun hallows hliterals => ?_⟩
  · exact (TextExpr.bounds (hstarts.mono TextGuarantee.Describes.bounds) hsteady).length
  · exact (TextExpr.steady_and_covered hallows hliterals).1

/-- A measure in pixels behind a text of up to two characters, both in upper case. -/
def capitalMeasure : TextExpr :=
  .concat (.step (.start { charset := .unconstrained, maxLength := some 2 } "ß") (.caseMap false))
    (.step (.step (.start threeDigits "25") (.append "px")) (.caseMap false))

/-- A text whose charset has characters beyond ASCII is taken to become three times as long. -/
theorem length_le_maxLength_capitalMeasure :
    capitalMeasure.Starts TextGuarantee.Describes ∧ capitalMeasure.Starts TextGuarantee.Allows ∧
      (∀ literal ∈ capitalMeasure.literals, ∀ c ∈ literal.toList, c.toNat < 128) ∧
      capitalMeasure.guarantee.maxLength = some 11 ∧ capitalMeasure.text.length ≤ 11 := by
  have hdigits := describes_threeDigits
  have hsharp : "ß".length ≤ 2 := by decide +kernel
  have hdescribes : capitalMeasure.Starts TextGuarantee.Describes := by
    refine ⟨⟨fun c _ => contains_any c, ?_, nofun⟩, hdigits⟩
    intro m hm
    obtain rfl := Option.some.inj hm
    exact hsharp
  have hallows : capitalMeasure.Starts TextGuarantee.Allows :=
    ⟨⟨hdescribes.1.chars, hdescribes.1.length, nofun⟩, ⟨hdigits.chars, hdigits.length, nofun⟩⟩
  have hliterals : ∀ literal ∈ capitalMeasure.literals, ∀ c ∈ literal.toList, c.toNat < 128 := by
    intro literal hl
    obtain rfl := List.mem_singleton.mp hl
    rw [String.toList_ofList]
    simp
  have hlength : capitalMeasure.guarantee.maxLength = some 11 := by decide +kernel
  have hbound := length_le_maxLength hdescribes
  exact ⟨hdescribes, hallows, hliterals, hlength,
    hbound.1 (hbound.2 hallows hliterals) 11 hlength⟩

/-! ## A literal beyond ASCII -/

section SharpS

open Unicode

set_option maxRecDepth 20000 in
/-- The upper case of a sharp s has two characters. -/
theorem sharpS_entries : (∀ e ∈ Case.upperMappings.toList, e.1 ≠ 'ß'.toNat) ∧
    (Case.upperExpansions.find? fun e => e.1 = 'ß'.toNat) =
      some ('ß'.toNat, ['S'.toNat, 'S'.toNat]) := by
  unfold Case.upperMappings Case.upperExpansions Table.numbers
  unfold Case.upperText Case.upperExpansionText
  simp only [String.toList_join, List.flatMap_cons, List.flatMap_nil]
  repeat rw [String.toList_ofList]
  decide +kernel

theorem upper_sharpS : Case.upper 'ß' = ['S', 'S'] := by
  have hwide : ¬ 'ß'.toNat < 128 := by decide
  rw [Case.upper, if_neg hwide, mapWith_of_expansion sharpS_entries.1 sharpS_entries.2]
  rfl

end SharpS

/-- A digit in front of a sharp s, in upper case. -/
def capitalGrade : TextExpr :=
  .step (.step (.start { charset := .digits, maxLength := some 1 } "5") (.append "ß"))
    (.caseMap false)

theorem text_capitalGrade : capitalGrade.text = "5SS" := by
  have htext : ("5" ++ "ß").toList = ['5', 'ß'] := by
    rw [String.toList_append, String.toList_ofList, String.toList_ofList]
    rfl
  show String.ofList (("5" ++ "ß").toList.flatMap Unicode.Case.upper) = "5SS"
  rw [htext, List.flatMap_cons, List.flatMap_singleton, upper_sharpS]
  decide

/-- The same as a flow, with a loop that runs once for every character. -/
def gradeLoop : Path :=
  { version := pathVersion
    branches :=
      [{ parent := none, condition := .matchesPattern "[0-9]{1,1}" true, outcome := .passed }]
    steps :=
      [⟨.source (.ofText "grade"), none⟩, ⟨.guard 0, some 0⟩,
        ⟨.string "concat" [.current, .literal "ß"], some 0⟩,
        ⟨.string "toUpperCase" [], some 0⟩, ⟨.numeric .length [], some 0⟩,
        ⟨.sink .loopBound, some 0⟩] }

def grading : Classifier :=
  .ofEntries 2 [("concat", .text (.passThrough none)), ("toUpperCase", .text (.caseMap false))]

/-- A sharp s in a literal makes a text longer than its known length, so that a loop over the text
runs three times and passes under a ceiling of two. -/
theorem longer_than_maxLength :
    capitalGrade.Starts TextGuarantee.Describes ∧ capitalGrade.guarantee.maxLength = some 2 ∧
      capitalGrade.text.length = 3 ∧ (grading.classify gradeLoop).outcome = .safe := by
  have hdescribes : capitalGrade.Starts TextGuarantee.Describes := by
    refine ⟨fun c hc => ?_, by decide, nofun⟩
    rw [String.toList_ofList] at hc
    obtain rfl := List.mem_singleton.mp hc
    decide
  refine ⟨hdescribes, by decide, ?_, by decide +kernel⟩
  rw [text_capitalGrade]
  decide

end FlowSafety
