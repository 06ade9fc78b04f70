import FlowSafety.Proofs.Charset.Casing
import FlowSafety.Proofs.Text.Numerals

/-!
# Guarantees of mapped texts

A guarantee allows a text if it is true of it, where a charset that lists values has the characters
of these values only. What is said of a text after a mapping to lower or upper case is true of the
mapped text.

* `TextGuarantee.Allows` — the guarantee is true of the text
* `TextGuarantee.describes_caseMapped` — the guarantee of a case mapping is true of the mapped text
-/

namespace FlowSafety.TextGuarantee

variable {g : TextGuarantee} {s : String} {c : Char}

/-- The guarantee allows the text, with the characters of the values that its charset lists. -/
structure Allows (g : TextGuarantee) (s : String) : Prop where
  chars : ∀ c ∈ s.toList, g.charset.Allows c
  length : ∀ m ∈ g.maxLength, s.length ≤ m
  value : ∀ vs ∈ g.values, s ∈ vs

theorem Allows.bounds (h : g.Allows s) : g.Bounds s := ⟨h.length, h.value⟩

/-- Where no character beyond ASCII may occur raw, the shown characters are ASCII. -/
theorem ascii_of_shows (hascii : g.charset.possible.hasNonAscii = false)
    (hc : g.charset.Shows c) : c.toNat < 128 := by
  refine Decidable.byContradiction fun hwide => ?_
  have hpossible := hc.possible
  rw [CharClass.contains_wide hwide] at hpossible
  exact Bool.false_ne_true (hascii.symm.trans hpossible)

/-- Every character of a mapped text is written for one of the text, and it is shown after the
mapping if that one was before. -/
theorem exists_shows_caseMapped {lower : Bool} {d : Char} (hvalue : ∀ vs ∈ g.values, s ∈ vs)
    (hd : d ∈ (Text.mapCase lower s).toList) :
    ∃ c ∈ s.toList, ∃ ds, Text.Written lower c ds ∧ d ∈ ds ∧
      (g.charset.Shows c → (g.caseMapped lower).charset.Shows d) := by
  obtain ⟨c, hc, ds, hwritten, hdds⟩ := Text.exists_written_of_mem hd
  refine ⟨c, hc, ds, hwritten, hdds, fun hshows => ?_⟩
  unfold TextGuarantee.caseMapped
  cases hvalues : g.values with
  | some values =>
    have hmem : Text.mapCase lower s ∈ values.map (Text.mapCase lower) :=
      TextSet.mem_map.mpr ⟨s, hvalue values hvalues, rfl⟩
    exact ⟨_, hmem, d, hd, .inl rfl⟩
  | none => exact hshows.caseMapped hwritten hdds

/-- The guarantee of a mapping to lower or upper case is true of the mapped text: of its characters,
of its length and of its values. -/
theorem describes_caseMapped (h : g.Allows s) (lower : Bool) :
    (g.caseMapped lower).Describes (Text.mapCase lower s) := by
  have hshows : ∀ c ∈ s.toList, g.charset.Shows c := fun c hc => (h.chars c hc).shows
  have hbounds : (g.caseMapped lower).Bounds (Text.mapCase lower s) :=
    h.bounds.caseMapped fun _ hascii =>
      Nat.le_of_eq (Text.length_mapCase_of_ascii fun c hc => ascii_of_shows hascii (hshows c hc))
  refine ⟨fun d hd => ?_, hbounds.length, hbounds.value⟩
  obtain ⟨c, hc, -, -, -, hmapped⟩ := exists_shows_caseMapped h.value hd
  exact (hmapped (hshows c hc)).possible

/-- The end of one of two street names, behind a mask. -/
def maskedStreet : TextGuarantee :=
  { charset := .masked (.ofText "*") none 4 (.oneOf (.ofList ["Straße", "ΟΔΟΣ"]))
    maxLength := some 6 }

/-- The capital sigma that ends a value is in front of another letter here, and has another lower
case. -/
theorem describes_caseMapped_maskedStreet :
    maskedStreet.Allows "**ΣΔ" ∧
      (maskedStreet.caseMapped true).Describes (Text.mapCase true "**ΣΔ") := by
  have htext : "**ΣΔ".toList = ['*', '*', 'Σ', 'Δ'] := String.toList_ofList
  have hfiller : (CharClass.ofText "*").contains '*' = true := by decide
  have hkept (c : Char) (hc : c ∈ ['Ο', 'Δ', 'Ο', 'Σ']) :
      (Charset.oneOf (.ofList ["Straße", "ΟΔΟΣ"])).Allows c := by
    refine ⟨"ΟΔΟΣ", TextSet.mem_ofList.mpr (List.mem_cons_of_mem _ List.mem_cons_self), ?_⟩
    rw [String.toList_ofList]
    exact hc
  have hallows : maskedStreet.Allows "**ΣΔ" := by
    refine ⟨?_, by decide +kernel, nofun⟩
    simp only [htext, List.forall_mem_cons]
    exact ⟨.inl hfiller, .inl hfiller, .inr (hkept _ (by decide)), .inr (hkept _ (by decide)), nofun⟩
  exact ⟨hallows, describes_caseMapped hallows true⟩

end FlowSafety.TextGuarantee
