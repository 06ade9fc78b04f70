import FlowSafety.Proofs.Charset.Admits
import FlowSafety.Proofs.Text.Casing

/-!
# Charsets of case mappings

`Charset.Allows` reads a charset as a set of characters, where a list of values has the characters
of its values only. `Charset.Shows` is the same up to the form of a small sigma, which a mapping
chooses by what is around: it is what stays true of a text that is mapped again and again.

* `Charset.admits_of_possible` — without values a charset admits what may occur raw
* `Allows.shows`, `Shows.possible` — an allowed character is shown, and a shown one may occur raw
* `Shows.caseMapped` — a case mapping shows what is written for a shown character
-/

namespace FlowSafety

open CharClass Text

namespace Charset

variable {charset : Charset} {c d : Char} {lower : Bool} {ds : List Char}

/-- The charset allows for the character in a text. -/
def Allows : Charset → Char → Prop
  | .oneOf values, c => ∃ v ∈ values, c ∈ v.toList
  | .masked chars _ _ unmasked, c => chars.contains c = true ∨ unmasked.Allows c
  | charset, c => charset.possible.contains c = true

/-- The charset allows for the character, but for the form of a small sigma in a value. -/
def Shows : Charset → Char → Prop
  | .oneOf values, d => ∃ v ∈ values, ∃ c ∈ v.toList, Alike c d
  | .masked chars _ _ unmasked, d => chars.contains d = true ∨ unmasked.Shows d
  | charset, d => charset.possible.contains d = true

theorem Allows.shows (h : charset.Allows c) : charset.Shows c := by
  induction charset with
  | masked chars _ _ unmasked ih => exact h.imp_right ih
  | oneOf values =>
    obtain ⟨v, hv, hc⟩ := h
    exact ⟨v, hv, c, hc, .inl rfl⟩
  | _ => exact h

theorem Admits.shows (h : charset.Admits c) : charset.Shows c := by
  induction charset with
  | masked chars _ _ unmasked ih => exact h.imp_right ih
  | oneOf values => exact Allows.shows h
  | _ => exact h.possible

/-- A shown character may occur raw. -/
theorem Shows.possible (h : charset.Shows c) : charset.possible.contains c = true := by
  induction charset with
  | masked chars _ _ unmasked ih =>
    rw [Charset.possible, contains_union]
    exact Bool.or_eq_true_iff.mpr (h.imp_right ih)
  | oneOf values =>
    obtain ⟨v, hv, c', hc', halike⟩ := h
    have hpossible : (oneOf values).possible.contains c' = true :=
      contains_foldl_union (.inr ⟨v, hv, hc'⟩)
    rcases halike with rfl | ⟨hsmall, hsmall'⟩
    · exact hpossible
    · rw [contains_wide_congr (wide_of_smallSigma hsmall') (wide_of_smallSigma hsmall)]
      exact hpossible
  | _ => exact h

/-- Without values a charset admits what may occur raw. -/
theorem admits_of_possible (hfree : charset.isValueFree = true)
    (h : charset.possible.contains c = true) : charset.Admits c := by
  induction charset with
  | unconstrained => trivial
  | escaped context => exact context.possible_avoids_neutralized c h
  | masked chars _ _ unmasked ih =>
    rw [Charset.possible, contains_union, Bool.or_eq_true] at h
    exact h.imp_right (ih hfree)
  | oneOf values => contradiction
  | _ => exact h

/-- A case mapping shows what is written for a shown character. -/
theorem Shows.caseMapped (h : charset.Shows c) (hwritten : Written lower c ds) (hd : d ∈ ds) :
    (charset.caseMapped lower).Shows d := by
  have himage := hwritten.caseImage
  induction charset with
  | masked chars _ _ unmasked ih =>
    rcases h with h | h
    · exact .inl (contains_caseMapped himage h hd)
    · exact .inr (ih h)
  | oneOf values =>
    obtain ⟨v, hv, c', hc', halike⟩ := h
    obtain ⟨ds', hwritten', hds'⟩ := exists_written_of_mem_left lower hc'
    obtain ⟨d', hd', halike'⟩ := halike.symm.written hwritten hwritten' hd
    exact ⟨mapCase lower v, TextSet.mem_map.mpr ⟨v, hv, rfl⟩, d', hds' d' hd',
      halike'.symm⟩
  | _ =>
    -- an escaping and an alphabet are as they were, and a class is mapped as a class
    exact ((admits_of_possible rfl h).caseMapped rfl himage hd).possible

end Charset

end FlowSafety
