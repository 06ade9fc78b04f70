import FlowSafety.Proofs.Charset.CharClass
import FlowSafety.Sink
import FlowSafety.Walk.Refinement

/-!
# What a charset admits

`Charset.Admits` reads a charset as a set of characters that a text may hold without having been
written by a developer. Escaping admits what it does not neutralize, since it writes the characters
of a replacement itself, and a mask admits what the text before it did.

* `Admits.possible` — an admitted character may occur raw
* `admits_concat` — a concatenation admits what may occur raw in one of its parts
* `Admits.caseMapped` — a case mapping admits the images of what was admitted
* `Admits.confined` — a pattern leaves what it can take
* `not_forbidden_of_check` — a charset that passes the check of a sink admits nothing forbidden
-/

namespace FlowSafety

namespace EscapeContext

variable {context : EscapeContext} {c : Char}

/-- What the context does not neutralize may occur raw in an escaped text. -/
theorem contains_possible (h : context.neutralized.contains c = false) :
    (Charset.escaped context).possible.contains c = true := by
  have hcompl (k : CharClass) (hk : k.compl.contains c = false) : k.contains c = true := by
    cases hc : k.contains c with
    | true => rfl
    | false =>
      rw [CharClass.contains_compl hc] at hk
      contradiction
  cases context with
  | html => exact CharClass.contains_diff (CharClass.contains_any c) h
  | htmlAttribute => exact CharClass.contains_diff (CharClass.contains_any c) h
  | script => exact CharClass.contains_diff (CharClass.contains_any c) h
  | url => exact hcompl _ h
  | css => exact hcompl _ h

/-- What may occur raw in an escaped text is not neutralized. -/
theorem possible_avoids_neutralized (context : EscapeContext) :
    (Charset.escaped context).possible.Avoids context.neutralized := by
  refine CharClass.inter_isEmpty_iff.mp ?_
  cases context <;> decide

/-- A context that covers another one neutralizes what the other does. -/
theorem neutralized_of_covers {a b : EscapeContext} (h : a.covers b = true)
    (ha : a.neutralized.contains c = false) : b.neutralized.contains c = false := by
  rcases Bool.or_eq_true_iff.mp h with he | he
  · rw [← of_decide_eq_true he]
    exact ha
  · obtain ⟨ha', hb'⟩ := Bool.and_eq_true_iff.mp he
    rw [of_decide_eq_true ha'] at ha
    rw [of_decide_eq_true hb']
    have hsubset : EscapeContext.html.neutralized.isSubsetOf
        EscapeContext.htmlAttribute.neutralized = true := by
      decide
    cases hc : EscapeContext.html.neutralized.contains c with
    | false => rfl
    | true =>
      rw [CharClass.contains_of_isSubsetOf hsubset hc] at ha
      contradiction

end EscapeContext

namespace Charset

variable {a b charset : Charset} {k : CharClass} {c : Char}

/-- The charset allows for the character, other than as a part of what a developer wrote. -/
def Admits : Charset → Char → Prop
  | .unconstrained, _ => True
  | .escaped context, c => context.neutralized.contains c = false
  | .digits, c => CharClass.digits.contains c = true
  | .hexDigits, c => CharClass.hexDigits.contains c = true
  | .base64, c => CharClass.base64.contains c = true
  | .format chars _, c => chars.contains c = true
  | .masked chars _ _ unmasked, c => chars.contains c = true ∨ unmasked.Admits c
  | .oneOf values, c => ∃ v ∈ values, c ∈ v.toList

/-! ## Raw characters -/

theorem contains_foldl_union {values : List String} (h : k.contains c = true ∨
    ∃ v ∈ values, c ∈ v.toList) :
    (values.foldl (fun k v => k.union (.ofText v)) k).contains c = true := by
  induction values generalizing k with
  | nil =>
    rcases h with h | ⟨v, hv, -⟩
    · exact h
    · simp at hv
  | cons v values ih =>
    refine ih ?_
    rw [CharClass.contains_union]
    rcases h with h | ⟨v', hv', hc⟩
    · exact Or.inl (Bool.or_eq_true_iff.mpr (Or.inl h))
    · rcases List.mem_cons.mp hv' with rfl | hv'
      · exact Or.inl (Bool.or_eq_true_iff.mpr (Or.inr (CharClass.contains_ofText hc)))
      · exact Or.inr ⟨v', hv', hc⟩

/-- An admitted character may occur raw. -/
theorem Admits.possible (h : charset.Admits c) : charset.possible.contains c = true := by
  induction charset with
  | unconstrained => exact CharClass.contains_any c
  | escaped context => exact EscapeContext.contains_possible h
  | digits => exact h
  | hexDigits => exact h
  | base64 => exact h
  | format chars _ => exact h
  | masked chars _ kept unmasked ih =>
    rw [Charset.possible, CharClass.contains_union]
    exact Bool.or_eq_true_iff.mpr (h.imp_right ih)
  | oneOf values => exact contains_foldl_union (Or.inr h)

theorem admits_ofClass (h : k.contains c = true) : (ofClass k).Admits c := by
  unfold ofClass
  split
  · trivial
  · split
    · next hsub => exact CharClass.contains_of_isSubsetOf hsub h
    · split
      · next hsub => exact CharClass.contains_of_isSubsetOf hsub h
      · exact h

/-! ## Concatenation -/

theorem admits_besideEscaped {context : EscapeContext} {other : Charset}
    (h : (escaped context).possible.contains c = true ∨ other.possible.contains c = true) :
    (besideEscaped context other).Admits c := by
  unfold besideEscaped
  split
  · trivial
  · next hdisjoint =>
    rcases h with h | h
    · exact context.possible_avoids_neutralized c h
    · exact CharClass.not_contains_of_not_intersects (Bool.not_eq_true _ ▸ hdisjoint) h

/-- A concatenation admits what may occur raw in one of its parts. -/
theorem admits_concat (h : a.possible.contains c = true ∨ b.possible.contains c = true) :
    (a.concat b).Admits c := by
  unfold concat
  split
  · trivial
  · trivial
  · next x y =>
    have h := h.imp (x.possible_avoids_neutralized c) (y.possible_avoids_neutralized c)
    split
    · next hcovers => exact h.elim (EscapeContext.neutralized_of_covers hcovers) id
    · split
      · next hcovers => exact h.elim id (EscapeContext.neutralized_of_covers hcovers)
      · trivial
  · exact admits_besideEscaped h
  · exact admits_besideEscaped h.symm
  · refine admits_ofClass ?_
    rw [CharClass.contains_union]
    exact Bool.or_eq_true_iff.mpr h

/-! ## Patterns -/

theorem admits_withPattern {pattern : String} :
    (charset.withPattern pattern).Admits c ↔ charset.Admits c := by
  cases charset <;> rfl

/-- A text that matches a pattern keeps what both the charset and the pattern allow for. -/
theorem Admits.confined {chars : CharClass} {pattern : String} (h : charset.Admits c)
    (hc : chars.contains c = true) : (charset.confined chars pattern).Admits c := by
  have hclass : ((ofClass (charset.possible.inter chars)).withPattern pattern).Admits c := by
    rw [admits_withPattern]
    refine admits_ofClass ?_
    rw [CharClass.contains_inter, h.possible, hc]
    rfl
  unfold Charset.confined
  split
  · split
    · split
      · exact h
      · exact admits_withPattern.mpr (admits_ofClass hc)
    · exact hclass
  · exact hclass

/-! ## Case mapping -/

/-- The charset does not list values. -/
def isValueFree : Charset → Bool
  | .masked _ _ _ unmasked => unmasked.isValueFree
  | .oneOf _ => false
  | _ => true

theorem isValueFree_ofClass (k : CharClass) : (ofClass k).isValueFree = true := by
  unfold ofClass
  split
  · rfl
  · split
    · rfl
    · split <;> rfl

theorem isValueFree_concat (a b : Charset) : (a.concat b).isValueFree = true := by
  have hbeside (context : EscapeContext) (other : Charset) :
      (besideEscaped context other).isValueFree = true := by
    unfold besideEscaped
    split <;> rfl
  unfold concat
  split
  · rfl
  · rfl
  · split
    · rfl
    · split <;> rfl
  · exact hbeside _ _
  · exact hbeside _ _
  · exact isValueFree_ofClass _

theorem isValueFree_confined {chars : CharClass} {pattern : String}
    (h : charset.isValueFree = true) : (charset.confined chars pattern).isValueFree = true := by
  have hclass (k : CharClass) : ((ofClass k).withPattern pattern).isValueFree = true := by
    have hfree := isValueFree_ofClass k
    cases hk : ofClass k with
    | oneOf values =>
      rw [hk] at hfree
      contradiction
    | masked chars _ kept unmasked =>
      rw [hk] at hfree
      exact hfree
    | _ => rfl
  unfold Charset.confined
  split
  · split
    · split
      · exact h
      · exact hclass _
    · exact hclass _
  · exact hclass _

theorem isValueFree_caseMapped {lower : Bool} (h : charset.isValueFree = true) :
    (charset.caseMapped lower).isValueFree = true := by
  induction charset with
  | masked chars _ kept unmasked ih => exact ih h
  | oneOf values => contradiction
  | _ => rfl

open CharClass (CaseImage asciiImage)

variable {lower : Bool} {d : Char} {ds : List Char}

/-- An alphabet of ASCII characters that has every letter in both cases. -/
theorem contains_image_of_closed (hascii : k.nonAscii = .none)
    (hclosed : ∀ n < 128, k.contains (Char.ofNat n) = true →
      k.contains (asciiImage lower (Char.ofNat n)) = true)
    (hc : k.contains c = true) (himage : CaseImage lower c ds) (hd : d ∈ ds) :
    k.contains d = true := by
  cases himage with
  | ascii hlt =>
    obtain rfl := List.mem_singleton.mp hd
    exact CharClass.ascii_induction
      (P := fun c => k.contains c = true → k.contains (asciiImage lower c) = true) hclosed hlt hc
  | wide hwide _ =>
    rw [CharClass.contains_wide hwide, hascii] at hc
    contradiction

/-- No context neutralizes letters. -/
theorem isLetterless_neutralized (context : EscapeContext) :
    context.neutralized.IsLetterless := by
  intro lower
  refine CharClass.inter_isEmpty_iff.mp ?_
  cases context <;> cases lower <;> decide

/-- A case mapping admits the images of what was admitted. -/
theorem Admits.caseMapped (h : charset.Admits c) (hfree : charset.isValueFree = true)
    (himage : CaseImage lower c ds) (hd : d ∈ ds) : (charset.caseMapped lower).Admits d := by
  -- a list of values is mapped value by value, which says nothing of single characters
  induction charset with
  | unconstrained => trivial
  | escaped context => exact (isLetterless_neutralized context).not_contains_image h himage hd
  | digits =>
    exact contains_image_of_closed rfl (by cases lower <;> decide) h himage hd
  | hexDigits =>
    exact contains_image_of_closed rfl (by cases lower <;> decide) h himage hd
  | base64 =>
    exact contains_image_of_closed rfl (by cases lower <;> decide) h himage hd
  | format chars _ => exact CharClass.contains_caseMapped himage h hd
  | masked chars _ kept unmasked ih =>
    rcases h with h | h
    · exact Or.inl (CharClass.contains_caseMapped himage h hd)
    · exact Or.inr (ih h hfree)
  | oneOf values => contradiction

end Charset

/-! ## Sinks -/

/-- A charset that passes the check of a sink admits no forbidden character. -/
theorem Sink.not_forbidden_of_check {forbidden : CharClass} {charset : Charset} {why : String}
    {c : Char} (h : check forbidden charset = .ok why) (hc : charset.Admits c) :
    forbidden.contains c = false := by
  induction charset generalizing why with
  | unconstrained => contradiction
  | format chars pattern =>
    unfold check at h
    simp only at h
    split at h
    · next hempty => exact CharClass.not_contains_of_inter_isEmpty hempty hc
    · contradiction
  | masked chars pattern kept unmasked ih =>
    unfold check at h
    simp only at h
    split at h
    · next hempty =>
      -- the check looks at the filler first and then at what the mask keeps
      rcases hc with hc | hc
      · exact CharClass.not_contains_of_inter_isEmpty hempty hc
      · cases hu : check forbidden unmasked with
        | error e =>
          rw [hu] at h
          contradiction
        | ok why' => exact ih hu hc
    · contradiction
  | _ =>
    unfold check at h
    simp only at h
    split at h
    · next hempty => exact CharClass.not_contains_of_inter_isEmpty hempty hc.possible
    · contradiction

end FlowSafety
