import FlowSafety.Proofs.Charset.Admits
import FlowSafety.Proofs.Text.Joining
import FlowSafety.Proofs.Text.Marked
import FlowSafety.Proofs.Walk.Coverage

/-!
# Transforms of marked texts

A guarantee covers a marked text if its charset admits every character that an attacker may have
chosen. Every transform whose effect is known maps a guarantee that covers a text to one that covers
whatever the transform may return.

* `TextGuarantee.Covers` — the guarantee admits what an attacker may have chosen
* `TextGuarantee.Covers.passThrough` — concatenations, where the earlier steps are covered
* `TextEffect.evaluate_sound` — all transforms
-/

namespace FlowSafety

/-! ## Covered texts -/

/-- The guarantee admits every character that an attacker may have chosen. It lists no values, so
that what is known is only known from its charset. -/
structure TextGuarantee.Covers (g : TextGuarantee) (x : List Marked) : Prop where
  values : g.values = none
  valueFree : g.charset.isValueFree = true
  admits : ∀ m ∈ x, m.attacker = true → g.charset.Admits m.char

/-- The value is a guarantee that covers the text. -/
def Value.CoversText (x : List Marked) : Value → Prop
  | .text g => g.Covers x
  | .integer _ => False

theorem Value.CoversText.exists_guarantee {x : List Marked} {v : Value} (h : v.CoversText x) :
    ∃ g, v = .text g ∧ g.Covers x := by
  cases v with
  | text g => exact ⟨g, rfl, h⟩
  | integer iv => exact h.elim

/-- A character of a text that is written part by part stems from one of the parts. -/
theorem exists_of_mem_flatten {α β : Type} {R : α → List β → Prop} {xs : List α}
    {parts : List (List β)} {y : β} (h : List.Forall₂ R xs parts) (hy : y ∈ parts.flatten) :
    ∃ x ∈ xs, ∃ part, R x part ∧ y ∈ part := by
  obtain ⟨part, hpart, hy⟩ := List.mem_flatten.mp hy
  obtain ⟨x, hx, hr⟩ := exists_of_forall₂_of_mem h hpart
  exact ⟨x, hx, part, hr, hy⟩

namespace TextGuarantee

variable {g : TextGuarantee} {x y : List Marked} {parts : List (List Marked)}

theorem covers_unconstrained (x : List Marked) : unconstrained.Covers x :=
  ⟨rfl, rfl, fun _ _ _ => trivial⟩

/-! ## Single transforms -/

theorem covers_escaped {context : EscapeContext} {maxLength : Option Nat}
    (h : List.Forall₂ (Escaped context) x parts) :
    Covers { charset := .escaped context, maxLength := maxLength } parts.flatten := by
  refine ⟨rfl, rfl, ?_⟩
  intro m hm hattacker
  obtain ⟨n, -, part, hpart, hm⟩ := exists_of_mem_flatten h hm
  cases hpart with
  | replaced =>
    rw [Marked.attacker_of_mem_written hm] at hattacker
    contradiction
  | kept hkept =>
    obtain rfl := List.mem_singleton.mp hm
    exact hkept hattacker

theorem Covers.caseMapped {lower : Bool} (hg : g.Covers x)
    (h : List.Forall₂ (CaseMapped lower) x parts) : (g.caseMapped lower).Covers parts.flatten := by
  unfold TextGuarantee.caseMapped
  rw [hg.values]
  refine ⟨rfl, Charset.isValueFree_caseMapped hg.valueFree, ?_⟩
  intro m hm hattacker
  obtain ⟨n, hn, part, hpart, hm⟩ := exists_of_mem_flatten h hm
  cases hpart with
  | image himage =>
    obtain ⟨d, hd, rfl⟩ := List.mem_map.mp hm
    exact (hg.admits n hn hattacker).caseMapped hg.valueFree himage hd

theorem covers_digits {maxLength : Option Nat} :
    Covers { charset := .digits, maxLength := maxLength }
      (x.filter fun m => m.char.isDigit) :=
  ⟨rfl, rfl, fun _ hm _ => CharClass.contains_digits (List.mem_filter.mp hm).2⟩

/-- A digest shows characters of its alphabet. -/
theorem covers_digest {name : String} {encoding : DigestEncoding} {length : Nat}
    {pieces : List Piece} {g' : TextGuarantee} {cs : List Char}
    (h : (TextEffect.digest encoding length).onText name pieces g = .ok g')
    (hcs : ∀ c ∈ cs, c ∈ encoding.alphabet.toList) : g'.Covers (Marked.chosen cs) := by
  cases encoding with
  | hex =>
    obtain rfl := Except.ok.inj h
    have hall : DigestEncoding.hex.alphabet.toList.all CharClass.hexDigits.contains = true := by
      unfold DigestEncoding.alphabet
      rw [String.toList_ofList]
      decide
    refine ⟨rfl, rfl, ?_⟩
    intro m hm _
    exact List.all_eq_true.mp hall _ (hcs _ (Marked.char_mem_of_mem_chosen hm))
  | base64 =>
    obtain rfl := Except.ok.inj h
    have hall : DigestEncoding.base64.alphabet.toList.all CharClass.base64.contains = true := by
      unfold DigestEncoding.alphabet
      rw [String.toList_ofList]
      decide
    refine ⟨rfl, rfl, ?_⟩
    intro m hm _
    exact List.all_eq_true.mp hall _ (hcs _ (Marked.char_mem_of_mem_chosen hm))

/-- A mask shows its filler, and of the text what it keeps. -/
theorem Covers.mask {kept n : Nat} {filler : Char} (hg : g.Covers x) (hy : y <:+ x)
    (hkept : y.length ≤ kept) :
    (g.mask kept filler).Covers (Marked.chosen (List.replicate n filler) ++ y) := by
  have hfiller : ∀ m ∈ Marked.chosen (List.replicate n filler),
      (CharClass.empty.insert filler).contains m.char = true := by
    intro m hm
    rw [List.eq_of_mem_replicate (Marked.char_mem_of_mem_chosen hm)]
    exact CharClass.contains_insert_self CharClass.empty filler
  unfold TextGuarantee.mask
  by_cases hpos : 0 < kept
  · simp only [hpos, if_true]
    refine ⟨rfl, hg.valueFree, ?_⟩
    intro m hm hattacker
    rcases List.mem_append.mp hm with hm | hm
    · exact Or.inl (hfiller m hm)
    · exact Or.inr (hg.admits m (hy.subset hm) hattacker)
  · have hnil : y = [] := List.length_eq_zero_iff.mp (by omega)
    simp only [hpos, if_false, hnil, List.append_nil]
    exact ⟨rfl, rfl, fun m hm _ => hfiller m hm⟩

/-! ## Concatenations -/

theorem inherited_values : Inherited fun g => g.values = none where
  concat_left := fun _ => rfl
  concat_right := fun _ => rfl
  beside := fun _ _ hg => by rw [TextGuarantee.beside, hg]; rfl

theorem inherited_valueFree : Inherited fun g => g.charset.isValueFree = true where
  concat_left := fun _ => Charset.isValueFree_concat _ _
  concat_right := fun _ => Charset.isValueFree_concat _ _
  beside := fun _ _ hg => hg

theorem inherited_admits (c : Char) : Inherited fun g => g.charset.Admits c where
  concat_left := fun hg => Charset.admits_concat (Or.inl hg.possible)
  concat_right := fun hg => Charset.admits_concat (Or.inr hg.possible)
  beside := fun _ _ hg => hg

theorem Covers.cut (hg : g.Covers x) (truncate : Option Nat) (ints : List Int64) :
    (g.cut truncate ints).Covers x := by
  have hcharset := g.cut_charset truncate ints
  refine ⟨cut_values truncate ints hg.values, ?_, fun m hm hattacker => ?_⟩
  · rw [hcharset]
    exact hg.valueFree
  · rw [hcharset]
    exact hg.admits m hm hattacker

/-- An argument that brings a character of an attacker is a piece that admits it. -/
theorem exists_piece_of_partOf {w : Walk} {index : Nat} {results : List (List Marked)}
    {arguments : List Argument} {pieces : List Piece} {a : Argument} {part : List Marked}
    {m : Marked} (hw : w.Covers Value.CoversText results)
    (hpieces : List.Forall₂ (fun a p => w.pieceOf index a = .ok p) arguments pieces)
    (hg : g.Covers x) (ha : a ∈ Argument.placed arguments) (hpart : PartOf results x a part)
    (hm : m ∈ part) (hattacker : m.attacker = true) :
    ∃ p ∈ inOrder pieces, ∃ t, p.tainted? g = some t ∧ t.charset.Admits m.char := by
  cases hpart with
  | current hwithin =>
    exact ⟨.current, current_mem_inOrder pieces, g, rfl,
      hg.admits m (hwithin.subset hm) hattacker⟩
  | literal =>
    rw [Marked.attacker_of_mem_written hm] at hattacker
    contradiction
  | int => simp at hm
  | @step target part hresult =>
    have hmem : Argument.step target ∈ arguments := by
      unfold Argument.placed at ha
      split at ha
      · exact ha
      · exact (List.mem_cons.mp ha).resolve_left (by simp)
    obtain ⟨p, hp, hpiece⟩ := exists_of_forall₂_of_mem_left hpieces hmem
    obtain ⟨v, hv, rfl⟩ := map_eq_ok.mp hpiece
    have hcovers : v.CoversText part := hw.result (Walk.resultOf_eq_ok.mp hv) hresult
    obtain ⟨t, rfl, ht⟩ := hcovers.exists_guarantee
    exact ⟨.value (.text t), mem_inOrder hp rfl, t, rfl, ht.admits m hm hattacker⟩

/-- A concatenation covers all parts that it may be joined from. -/
theorem Covers.passThrough {w : Walk} {index : Nat} {results : List (List Marked)}
    {truncate : Option Nat} {arguments : List Argument} {pieces : List Piece}
    (hw : w.Covers Value.CoversText results)
    (hpieces : List.Forall₂ (fun a p => w.pieceOf index a = .ok p) arguments pieces)
    (hg : g.Covers x) (h : List.Forall₂ (PartOf results x) (Argument.placed arguments) parts)
    (hy : y <:+: parts.flatten) : (g.passThrough truncate pieces).Covers y := by
  -- the flowing text is always among the pieces, so the whole is as free of values as it is
  have hcut := hg.cut truncate (pieces.filterMap Piece.int?)
  have hcurrent := current_mem_inOrder pieces
  refine ⟨inherited_values.passThrough hcurrent rfl hcut.values,
    inherited_valueFree.passThrough hcurrent rfl hcut.valueFree, ?_⟩
  intro m hm hattacker
  obtain ⟨a, ha, part, hpart, hm⟩ := exists_of_mem_flatten h (hy.subset hm)
  obtain ⟨p, hp, t, ht, hadmits⟩ :=
    exists_piece_of_partOf hw hpieces hcut ha hpart hm hattacker
  exact (inherited_admits m.char).passThrough hp ht hadmits

end TextGuarantee

/-! ## All transforms -/

theorem filterMap_int?_of_pieces {w : Walk} {index : Nat} {arguments : List Argument}
    {pieces : List Piece}
    (h : List.Forall₂ (fun a p => w.pieceOf index a = .ok p) arguments pieces) :
    pieces.filterMap Piece.int? = arguments.filterMap Argument.int? := by
  induction h with
  | nil => rfl
  | @cons a p arguments pieces hp _ ih =>
    have hint : p.int? = a.int? := by
      cases a with
      | current | literal s | int v =>
        obtain rfl := Except.ok.inj hp
        rfl
      | step target =>
        obtain ⟨v, -, rfl⟩ := map_eq_ok.mp hp
        rfl
    rw [List.filterMap_cons, List.filterMap_cons, hint, ih]

/-- What a transform makes of a guarantee covers all that the transform may return. -/
theorem TextEffect.evaluate_sound {name : String} {effect : TextEffect} {w : Walk} {index : Nat}
    {results : List (List Marked)} {arguments : List Argument} {pieces : List Piece}
    {x y : List Marked} {v : Value} {g : TextGuarantee}
    (hw : w.Covers Value.CoversText results)
    (hpieces : List.Forall₂ (fun a p => w.pieceOf index a = .ok p) arguments pieces)
    (hv : v.CoversText x) (hy : effect.Yields results arguments x y)
    (h : effect.evaluate name pieces v = .ok g) : g.Covers y := by
  obtain ⟨g₀, rfl, hg₀⟩ := hv.exists_guarantee
  cases hy with
  | escape hparts =>
    obtain rfl := Except.ok.inj h
    exact TextGuarantee.covers_escaped hparts
  | caseMap hparts =>
    obtain rfl := Except.ok.inj h
    exact hg₀.caseMapped hparts
  | digitFilter =>
    obtain rfl := Except.ok.inj h
    exact TextGuarantee.covers_digits
  | @mask preset filler n x y hsuffix hkept =>
    obtain rfl := Except.ok.inj h
    refine hg₀.mask hsuffix ?_
    unfold keptBy
    rw [filterMap_int?_of_pieces hpieces]
    exact hkept
  | digest hcs => exact TextGuarantee.covers_digest h hcs
  | passThrough hparts hwithin =>
    obtain rfl := Except.ok.inj h
    exact hg₀.passThrough hw hpieces hparts hwithin

end FlowSafety
