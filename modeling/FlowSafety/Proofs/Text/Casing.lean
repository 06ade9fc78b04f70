import FlowSafety.Proofs.Results
import FlowSafety.Proofs.Text.Marked
import FlowSafety.Text.Casing

/-!
# Case mappings of the standard

What charsets assume of case mappings is true of those of the Unicode standard: an ASCII character
keeps its letter, and a character beyond ASCII becomes no ASCII characters but letters of the target
case.

* `tables_show`, `expansions_le` — the tables hold nothing else, and no more than three characters
* `Text.Written` — what the mapping of a text writes for one of its characters
* `exists_written` — the mapping of a text, character by character
* `Text.length_mapCase_le`, `Text.length_mapCase_of_ascii` — its length
* `Text.Alike.written` — characters that differ in the form of a small sigma only stay so
* `exists_caseMapped` — it is one that `CaseMapped` allows
-/

namespace FlowSafety

open Unicode CharClass

/-- The character may show after a mapping of characters beyond ASCII. -/
def maybeShown (lower : Bool) (d : Char) : Bool := 128 ≤ d.toNat || (letters lower).contains d

theorem caseImage_of_maybeShown {lower : Bool} {c : Char} {ds : List Char} (hc : ¬ c.toNat < 128)
    (h : ∀ d ∈ ds, maybeShown lower d = true) : CaseImage lower c ds := by
  refine .wide hc ?_
  intro d hd
  rcases Bool.or_eq_true_iff.mp (h d hd) with hwide | hletter
  · exact Or.inl (Nat.not_lt.mpr (of_decide_eq_true hwide))
  · exact Or.inr hletter

/-! ## Tables -/

set_option maxRecDepth 20000 in
/-- No table maps a character beyond ASCII to ASCII characters that are no letters of its case. -/
theorem tables_show :
    (∀ e ∈ Case.lowerMappings.toList, maybeShown true (Char.ofNat e.2) = true) ∧
      (∀ e ∈ Case.lowerExpansions, ∀ n ∈ e.2, maybeShown true (Char.ofNat n) = true) ∧
      (∀ e ∈ Case.upperMappings.toList, maybeShown false (Char.ofNat e.2) = true) ∧
      ∀ e ∈ Case.upperExpansions, ∀ n ∈ e.2, maybeShown false (Char.ofNat n) = true := by
  unfold Case.lowerMappings Case.lowerExpansions Case.upperMappings Case.upperExpansions
  unfold Table.numbers
  -- a joined text is evaluated as the list of its characters
  unfold Case.lowerText Case.lowerExpansionText Case.upperText Case.upperExpansionText
  simp only [String.toList_join, List.flatMap_cons, List.flatMap_nil]
  repeat rw [String.toList_ofList]
  decide +kernel

set_option maxRecDepth 20000 in
/-- No table maps a character to more than three. -/
theorem expansions_le :
    (∀ e ∈ Case.lowerExpansions, e.2.length ≤ Charset.maxCaseExpansion) ∧
      ∀ e ∈ Case.upperExpansions, e.2.length ≤ Charset.maxCaseExpansion := by
  unfold Case.lowerExpansions Case.upperExpansions Table.numbers
  unfold Case.lowerExpansionText Case.upperExpansionText
  simp only [String.toList_join, List.flatMap_cons, List.flatMap_nil]
  repeat rw [String.toList_ofList]
  decide +kernel

theorem caseImage_mapWith {lower : Bool} {table : Array (Nat × Nat)}
    {wide : List (Nat × List Nat)} {c : Char} (hc : ¬ c.toNat < 128)
    (htable : ∀ e ∈ table.toList, maybeShown lower (Char.ofNat e.2) = true)
    (hwide : ∀ e ∈ wide, ∀ n ∈ e.2, maybeShown lower (Char.ofNat n) = true) :
    CaseImage lower c (Case.mapWith table wide c) := by
  unfold Case.mapWith
  split
  · next e he =>
    refine caseImage_of_maybeShown hc ?_
    intro d hd
    obtain rfl := List.mem_singleton.mp hd
    exact htable e (Array.mem_toList_iff.mpr (Array.mem_of_find?_eq_some he))
  · split
    · next e he =>
      refine caseImage_of_maybeShown hc ?_
      intro d hd
      obtain ⟨n, hn, rfl⟩ := List.mem_map.mp hd
      exact hwide e (List.mem_of_find?_eq_some he) n hn
    · refine .wide hc fun d hd => Or.inl ?_
      obtain rfl := List.mem_singleton.mp hd
      exact hc

section Entries

variable {table : Array (Nat × Nat)} {wide : List (Nat × List Nat)} {c : Char}

theorem find?_of_no_entry (h : ∀ e ∈ table.toList, e.1 ≠ c.toNat) :
    table.find? (fun e => e.1 = c.toNat) = none := by
  rw [← Array.find?_toList, List.find?_eq_none]
  exact fun e he heq => h e he (of_decide_eq_true heq)

/-- A character without an entry is mapped to itself. -/
theorem mapWith_of_no_entry (htable : ∀ e ∈ table.toList, e.1 ≠ c.toNat)
    (hwide : ∀ e ∈ wide, e.1 ≠ c.toNat) : Case.mapWith table wide c = [c] := by
  have hnone : wide.find? (fun e => e.1 = c.toNat) = none := by
    rw [List.find?_eq_none]
    exact fun e he heq => hwide e he (of_decide_eq_true heq)
  unfold Case.mapWith
  rw [find?_of_no_entry htable]
  simp only
  rw [hnone]

theorem mapWith_of_expansion {e : Nat × List Nat} (htable : ∀ e ∈ table.toList, e.1 ≠ c.toNat)
    (hwide : wide.find? (fun e => e.1 = c.toNat) = some e) :
    Case.mapWith table wide c = e.2.map Char.ofNat := by
  unfold Case.mapWith
  rw [find?_of_no_entry htable]
  simp only
  rw [hwide]

end Entries

theorem length_mapWith_le {table : Array (Nat × Nat)} {wide : List (Nat × List Nat)} {n : Nat}
    (hn : 1 ≤ n) (hwide : ∀ e ∈ wide, e.2.length ≤ n) (c : Char) :
    (Case.mapWith table wide c).length ≤ n := by
  unfold Case.mapWith
  split
  · exact hn
  · split
    · next e he =>
      rw [List.length_map]
      exact hwide e (List.mem_of_find?_eq_some he)
    · exact hn

/-! ## Characters -/

namespace Text

/-- What the mapping of a text writes for one of its characters. Only what it writes for a capital
sigma depends on the characters around it. -/
inductive Written : Bool → Char → List Char → Prop
  | lower {c : Char} : c ≠ 'Σ' → Written true c (Case.lower c)
  | sigma : Written true 'Σ' ['σ']
  | finalSigma : Written true 'Σ' ['ς']
  | upper {c : Char} : Written false c (Case.upper c)

variable {lower : Bool} {c c' d : Char} {ds ds' : List Char}

theorem Written.caseImage (h : Written lower c ds) : CaseImage lower c ds := by
  have hsigma (d : Char) (hd : ¬ d.toNat < 128) : CaseImage true 'Σ' [d] := by
    refine .wide (by decide) fun d' hd' => Or.inl ?_
    obtain rfl := List.mem_singleton.mp hd'
    exact hd
  cases h with
  | lower _ =>
    unfold Case.lower
    split
    · next hc => exact .ascii hc
    · next hc => exact caseImage_mapWith hc tables_show.1 tables_show.2.1
  | sigma => exact hsigma 'σ' (by decide)
  | finalSigma => exact hsigma 'ς' (by decide)
  | upper =>
    unfold Case.upper
    split
    · next hc => exact .ascii hc
    · next hc => exact caseImage_mapWith hc tables_show.2.2.1 tables_show.2.2.2

theorem Written.length_le (h : Written lower c ds) : ds.length ≤ Charset.maxCaseExpansion := by
  cases h with
  | lower _ =>
    unfold Case.lower
    split
    · exact Nat.le_add_left 1 2
    · exact length_mapWith_le (by decide) expansions_le.1 c
  | sigma => decide
  | finalSigma => decide
  | upper =>
    unfold Case.upper
    split
    · exact Nat.le_add_left 1 2
    · exact length_mapWith_le (by decide) expansions_le.2 c

theorem Written.length_of_ascii (h : Written lower c ds) (hc : c.toNat < 128) :
    ds.length = 1 := by
  cases h.caseImage with
  | ascii _ => rfl
  | wide hwide _ => contradiction

/-! ## Texts -/

theorem exists_written_lowerFrom (before cs : List Char) :
    ∃ parts, List.Forall₂ (Written true) cs parts ∧ lowerFrom before cs = parts.flatten := by
  induction cs generalizing before with
  | nil => exact ⟨[], .nil, rfl⟩
  | cons c cs ih =>
    obtain ⟨parts, hwritten, hparts⟩ := ih (c :: before)
    unfold lowerFrom
    rw [hparts]
    refine ⟨_ :: parts, .cons ?_ hwritten, rfl⟩
    split
    · next hc =>
      rw [hc]
      split
      · exact .finalSigma
      · exact .sigma
    · next hc => exact .lower hc

/-- The mapping of a text writes something for each of its characters, in order. -/
theorem exists_written (lower : Bool) (s : String) :
    ∃ parts, List.Forall₂ (Written lower) s.toList parts ∧
      (mapCase lower s).toList = parts.flatten := by
  cases lower with
  | true =>
    show ∃ parts, _ ∧ (String.ofList (lowerFrom [] s.toList)).toList = _
    rw [String.toList_ofList]
    exact exists_written_lowerFrom [] s.toList
  | false =>
    refine ⟨s.toList.map Case.upper, ?_, ?_⟩
    · rw [List.forall₂_map_right_iff]
      exact List.forall₂_same.mpr fun c _ => .upper
    · show (String.ofList (s.toList.flatMap Case.upper)).toList = _
      rw [String.toList_ofList]
      rfl

/-- Every character of a mapped text is written for a character of the text. -/
theorem exists_written_of_mem {s : String} {d : Char} (hd : d ∈ (mapCase lower s).toList) :
    ∃ c ∈ s.toList, ∃ ds, Written lower c ds ∧ d ∈ ds := by
  obtain ⟨parts, hwritten, hmapped⟩ := exists_written lower s
  rw [hmapped] at hd
  obtain ⟨ds, hds, hd⟩ := List.mem_flatten.mp hd
  obtain ⟨c, hc, hwritten⟩ := exists_of_forall₂_of_mem hwritten hds
  exact ⟨c, hc, ds, hwritten, hd⟩

/-- For every character of a text its mapping holds what is written for it. -/
theorem exists_written_of_mem_left {s : String} (lower : Bool) (hc : c ∈ s.toList) :
    ∃ ds, Written lower c ds ∧ ∀ d ∈ ds, d ∈ (mapCase lower s).toList := by
  obtain ⟨parts, hwritten, hmapped⟩ := exists_written lower s
  obtain ⟨ds, hds, hwritten⟩ := exists_of_forall₂_of_mem_left hwritten hc
  rw [hmapped]
  exact ⟨ds, hwritten, fun d hd => List.mem_flatten.mpr ⟨ds, hds, hd⟩⟩

theorem length_flatten_le {n : Nat} {cs : List Char} {parts : List (List Char)}
    (h : List.Forall₂ (fun _ ds => ds.length ≤ n) cs parts) :
    parts.flatten.length ≤ n * cs.length := by
  induction h with
  | nil => exact Nat.zero_le _
  | cons hds _ ih =>
    rw [List.flatten_cons, List.length_append, List.length_cons, Nat.mul_succ, Nat.add_comm]
    exact Nat.add_le_add ih hds

/-- The mapping of a text has at most three characters for each of its characters. -/
theorem length_mapCase_le (lower : Bool) (s : String) :
    (mapCase lower s).length ≤ Charset.maxCaseExpansion * s.length := by
  obtain ⟨parts, hwritten, hmapped⟩ := exists_written lower s
  rw [← String.length_toList, ← String.length_toList, hmapped]
  exact length_flatten_le (hwritten.imp fun _ _ h => h.length_le)

/-- The mapping of a text of ASCII characters is as long as the text. -/
theorem length_mapCase_of_ascii {s : String} (h : ∀ c ∈ s.toList, c.toNat < 128) :
    (mapCase lower s).length = s.length := by
  obtain ⟨parts, hwritten, hmapped⟩ := exists_written lower s
  rw [← String.length_toList, ← String.length_toList, hmapped]
  clear hmapped
  generalize s.toList = cs at h hwritten
  induction hwritten with
  | nil => rfl
  | cons hds _ ih =>
    rw [List.flatten_cons, List.length_append, List.length_cons,
      hds.length_of_ascii (h _ List.mem_cons_self), Nat.add_comm,
      ih fun c hc => h c (List.mem_cons_of_mem _ hc)]

/-! ## Small sigmas -/

/-- The two forms of the small sigma. -/
def smallSigmas : List Char := ['σ', 'ς']

set_option maxRecDepth 20000 in
/-- No table changes a small sigma to lower case, and both forms have the same upper case. -/
theorem smallSigma_entries : ∀ n ∈ smallSigmas.map Char.toNat,
    (∀ e ∈ Case.lowerMappings.toList, e.1 ≠ n) ∧ (∀ e ∈ Case.lowerExpansions, e.1 ≠ n) ∧
      (Case.upperMappings.toList.find? fun e => e.1 = n) = some (n, 'Σ'.toNat) := by
  unfold Case.lowerMappings Case.lowerExpansions Case.upperMappings Table.numbers
  unfold Case.lowerText Case.lowerExpansionText Case.upperText
  simp only [String.toList_join, List.flatMap_cons, List.flatMap_nil]
  repeat rw [String.toList_ofList]
  decide +kernel

theorem wide_of_smallSigma (hc : c ∈ smallSigmas) : ¬ c.toNat < 128 := by
  have hwide : ∀ n ∈ smallSigmas.map Char.toNat, ¬ n < 128 := by decide
  exact hwide c.toNat (List.mem_map.mpr ⟨c, hc, rfl⟩)

theorem written_smallSigma (hc : c ∈ smallSigmas)
    (h : Written lower c ds) : ds = if lower then [c] else ['Σ'] := by
  have hwide := wide_of_smallSigma hc
  obtain ⟨hlower, hexpansion, hupper⟩ :=
    smallSigma_entries c.toNat (List.mem_map.mpr ⟨c, hc, rfl⟩)
  cases h with
  | lower _ =>
    rw [Case.lower, if_neg hwide, mapWith_of_no_entry hlower hexpansion]
    rfl
  | sigma => simp [smallSigmas] at hc
  | finalSigma => simp [smallSigmas] at hc
  | upper =>
    rw [Case.upper, if_neg hwide, Case.mapWith, ← Array.find?_toList, hupper]
    rfl

/-- The same character, but for the form of a small sigma. -/
def Alike (c d : Char) : Prop := c = d ∨ c ∈ smallSigmas ∧ d ∈ smallSigmas

theorem Alike.symm (h : Alike c d) : Alike d c := h.imp Eq.symm And.symm

/-- What is written for one character in two places is alike. -/
theorem Written.alike (h : Written lower c ds) (h' : Written lower c ds') (hd : d ∈ ds) :
    ∃ d' ∈ ds', Alike d d' := by
  have hsmall {d d' : Char} (hd : d ∈ smallSigmas) (hd' : d' ∈ smallSigmas) :
      ∃ e ∈ [d'], Alike d e := ⟨d', List.mem_cons_self, .inr ⟨hd, hd'⟩⟩
  cases h with
  | lower hc =>
    cases h' with
    | lower _ => exact ⟨d, hd, .inl rfl⟩
    | sigma => contradiction
    | finalSigma => contradiction
  | sigma =>
    obtain rfl := List.mem_singleton.mp hd
    cases h' with
    | lower _ => contradiction
    | sigma => exact hsmall (by decide) (by decide)
    | finalSigma => exact hsmall (by decide) (by decide)
  | finalSigma =>
    obtain rfl := List.mem_singleton.mp hd
    cases h' with
    | lower _ => contradiction
    | sigma => exact hsmall (by decide) (by decide)
    | finalSigma => exact hsmall (by decide) (by decide)
  | upper =>
    cases h' with
    | upper => exact ⟨d, hd, .inl rfl⟩

/-- What is written for characters that are alike is alike. -/
theorem Alike.written (hc : Alike c c') (h : Written lower c ds) (h' : Written lower c' ds')
    (hd : d ∈ ds) : ∃ d' ∈ ds', Alike d d' := by
  rcases hc with rfl | ⟨hc, hc'⟩
  · exact h.alike h' hd
  · rw [written_smallSigma hc h] at hd
    rw [written_smallSigma hc' h']
    cases lower with
    | true =>
      obtain rfl := List.mem_singleton.mp hd
      exact ⟨c', List.mem_cons_self, .inr ⟨hc, hc'⟩⟩
    | false => exact ⟨d, hd, .inl rfl⟩

end Text

/-- The case mapping of a marked text is one that `CaseMapped` allows. -/
theorem exists_caseMapped (lower : Bool) (x : List Marked) :
    ∃ parts, List.Forall₂ (CaseMapped lower) x parts ∧
      parts.flatten.map (·.char) =
        (Text.mapCase lower (String.ofList (x.map (·.char)))).toList := by
  obtain ⟨written, hwritten, hmapped⟩ :=
    Text.exists_written lower (String.ofList (x.map (·.char)))
  rw [String.toList_ofList, List.forall₂_map_left_iff] at hwritten
  rw [hmapped]
  clear hmapped
  induction hwritten with
  | nil => exact ⟨[], .nil, rfl⟩
  | @cons m ds x written hds _ ih =>
    obtain ⟨parts, hparts, heq⟩ := ih
    refine ⟨ds.map (fun c => ⟨c, m.attacker⟩) :: parts, .cons (.image hds.caseImage) hparts, ?_⟩
    rw [List.flatten_cons, List.flatten_cons, List.map_append, heq, List.map_map]
    exact congrArg (· ++ _) (List.map_id ds)

end FlowSafety
