import FlowSafety.Proofs.Charset.Refinement

/-!
# Cuts, literals and case mappings

Cutting a text, putting a literal beside it and mapping its case bring no tainted character, so a
sink that accepts the text should accept the result. It does while no values are known, since the
charset leaves literals out. Where values are known they hold the literals as well, and a case
mapping takes the charset from the values: then a literal costs the acceptance if it has a forbidden
character that the mapping leaves in a value.

* `TextStep` — one operation, on a text and on what is known about it
* `TextStep.mem_text` — which characters an operation brings
* `isClear_after` — what keeps the charset and the known values free of forbidden characters
* `accepted_after_iff` — what a sink accepts after some operations
* `lowered_literal_refused` — a literal that costs the acceptance
-/

namespace FlowSafety

open CharClass

/-! ## Operations -/

/-- An operation that passes a text through. -/
inductive TextStep where
  /-- The first characters only. -/
  | truncate (length : Nat)
  /-- Constant text in front. -/
  | prepend (literal : String)
  /-- Constant text behind. -/
  | append (literal : String)
  /-- The lower or the upper case. -/
  | caseMap (lower : Bool)
deriving DecidableEq, Repr

namespace TextStep

def isCaseMap : TextStep → Bool
  | .caseMap _ => true
  | _ => false

/-- The constant text that the operation brings. -/
def literal? : TextStep → Option String
  | .prepend literal | .append literal => some literal
  | _ => none

/-- What the operation makes of a text. -/
def text (t : String) : TextStep → String
  | .truncate length => String.ofList (t.toList.take length)
  | .prepend literal => literal ++ t
  | .append literal => t ++ literal
  | .caseMap lower => Text.mapCase lower t

/-- What the operation makes of what is known about a text. -/
def guarantee (g : TextGuarantee) : TextStep → TextGuarantee
  | .truncate length => g.truncate length
  | .prepend literal => g.prepend literal
  | .append literal => g.append literal
  | .caseMap lower => g.caseMapped lower

/-- Apart from a case mapping, an operation brings no character but those of its literal. -/
theorem mem_text {s : TextStep} {t : String} {c : Char} (hs : s.isCaseMap = false)
    (hc : c ∈ (s.text t).toList) : c ∈ t.toList ∨ ∃ literal ∈ s.literal?, c ∈ literal.toList := by
  cases s with
  | truncate length =>
    rw [text, String.toList_ofList] at hc
    exact .inl (List.mem_of_mem_take hc)
  | prepend literal =>
    rw [text, String.toList_append] at hc
    exact (List.mem_append.mp hc).symm.imp_right fun hc => ⟨literal, rfl, hc⟩
  | append literal =>
    rw [text, String.toList_append] at hc
    exact (List.mem_append.mp hc).imp_right fun hc => ⟨literal, rfl, hc⟩
  | caseMap lower => contradiction

end TextStep

namespace TextGuarantee

/-- What is known after some operations. -/
def after (g : TextGuarantee) (steps : List TextStep) : TextGuarantee :=
  steps.foldl TextStep.guarantee g

variable {g : TextGuarantee} {forbidden : CharClass} {s : TextStep} {steps : List TextStep}

theorem after_append (g : TextGuarantee) (before rest : List TextStep) :
    g.after (before ++ rest) = (g.after before).after rest :=
  List.foldl_append

/-! ## One operation -/

theorem charset_guarantee (hs : s.isCaseMap = false) : (s.guarantee g).charset = g.charset := by
  cases s with
  | caseMap lower => contradiction
  | _ => rfl

/-- The known values are those that the operation makes of the ones before. -/
theorem values_guarantee (g : TextGuarantee) (s : TextStep) :
    (s.guarantee g).values = g.values.map (·.map s.text) := by
  cases s with
  | caseMap lower =>
    show (g.caseMapped lower).values = g.values.map (·.map (Text.mapCase lower))
    unfold caseMapped
    cases g.values <;> rfl
  | _ => rfl

/-- No operation learns values, and none forgets them. -/
theorem values_guarantee_eq_none_iff : (s.guarantee g).values = none ↔ g.values = none := by
  rw [values_guarantee, Option.map_eq_none_iff]

/-- The charset and the known values hold no forbidden character. -/
structure IsClear (forbidden : CharClass) (g : TextGuarantee) : Prop where
  charset : g.charset.possible.Avoids forbidden
  values : ∀ known, g.values = some known → ∀ v ∈ known, ∀ c ∈ v.toList,
    forbidden.contains c = false

theorem IsDrawn.isClear (hdrawn : g.IsDrawn) (h : g.charset.possible.Avoids forbidden) :
    g.IsClear forbidden :=
  ⟨h, fun known hknown v hv c hc => h c (hdrawn known hknown v hv c hc)⟩

theorem IsClear.caseMapped (h : g.IsClear forbidden) (hforbidden : forbidden.IsLetterless)
    (lower : Bool) : (g.caseMapped lower).IsClear forbidden := by
  unfold TextGuarantee.caseMapped
  cases hvalues : g.values with
  | none => exact ⟨Charset.avoids_caseMapped hforbidden h.charset lower, nofun⟩
  | some values =>
    have honeOf : (Charset.oneOf values).possible.Avoids forbidden :=
      Charset.avoids_oneOf.mpr (h.values values hvalues)
    have hmapped := Charset.avoids_caseMapped hforbidden honeOf lower
    refine ⟨hmapped, fun known hknown => ?_⟩
    obtain rfl := Option.some.inj hknown
    exact Charset.avoids_oneOf.mp hmapped

/-- An operation keeps charset and values free of forbidden characters, unless it puts some into
known values. -/
theorem IsClear.guarantee (h : g.IsClear forbidden) (hforbidden : forbidden.IsLetterless)
    (hliteral : g.values = none ∨ ∀ literal, s.literal? = some literal →
      ∀ c ∈ literal.toList, forbidden.contains c = false) :
    (s.guarantee g).IsClear forbidden := by
  cases hs : s.isCaseMap with
  | true =>
    cases s with
    | caseMap lower => exact h.caseMapped hforbidden lower
    | _ => contradiction
  | false =>
    refine ⟨(charset_guarantee hs).symm ▸ h.charset, fun known hknown w hw c hc => ?_⟩
    rw [values_guarantee] at hknown
    obtain ⟨known', hknown', rfl⟩ := Option.map_eq_some_iff.mp hknown
    obtain ⟨v, hv, rfl⟩ := TextSet.mem_map.mp hw
    rcases TextStep.mem_text hs hc with hc | ⟨literal, hl, hc⟩
    · exact h.values known' hknown' v hv c hc
    · exact hliteral.resolve_left (by rw [hknown']; nofun) literal hl c hc

/-! ## Runs -/

theorem isClear_after (h : g.IsClear forbidden) (hforbidden : forbidden.IsLetterless)
    (hliteral : g.values = none ∨ ∀ s ∈ steps, ∀ literal, s.literal? = some literal →
      ∀ c ∈ literal.toList, forbidden.contains c = false) :
    (g.after steps).IsClear forbidden := by
  induction steps generalizing g with
  | nil => exact h
  | cons s steps ih =>
    refine ih (h.guarantee hforbidden ?_) ?_
    · exact hliteral.imp_right fun hl => hl s List.mem_cons_self
    · exact hliteral.imp values_guarantee_eq_none_iff.mpr fun hl t ht =>
        hl t (List.mem_cons_of_mem s ht)

theorem charset_after (hsteps : ∀ s ∈ steps, s.isCaseMap = false) :
    (g.after steps).charset = g.charset := by
  induction steps generalizing g with
  | nil => rfl
  | cons s steps ih =>
    rw [after, List.foldl_cons, ← after, ih fun t ht => hsteps t (List.mem_cons_of_mem s ht)]
    exact charset_guarantee (hsteps s List.mem_cons_self)

theorem values_after_eq_none_iff : (g.after steps).values = none ↔ g.values = none := by
  induction steps generalizing g with
  | nil => rfl
  | cons s steps ih => exact ih.trans values_guarantee_eq_none_iff

/-- Either there is no case mapping, or there is a last one. -/
theorem exists_last_caseMap (steps : List TextStep) :
    (∀ s ∈ steps, s.isCaseMap = false) ∨
      ∃ before lower rest, steps = before ++ .caseMap lower :: rest ∧
        ∀ s ∈ rest, s.isCaseMap = false := by
  induction steps with
  | nil => exact .inl nofun
  | cons s steps ih =>
    rcases ih with hnone | ⟨before, lower, rest, rfl, hrest⟩
    · cases hs : s.isCaseMap with
      | false => exact .inl (List.forall_mem_cons.mpr ⟨hs, hnone⟩)
      | true =>
        cases s with
        | caseMap lower => exact .inr ⟨[], lower, steps, rfl, hnone⟩
        | _ => contradiction
    · exact .inr ⟨s :: before, lower, rest, rfl, hrest⟩

/-- Behind the last case mapping the charset is that of the mapped values, if values are known. -/
theorem avoids_after_caseMap_iff {before rest : List TextStep} {lower : Bool} {known : TextSet}
    (hrest : ∀ s ∈ rest, s.isCaseMap = false) (hknown : (g.after before).values = some known) :
    (g.after (before ++ .caseMap lower :: rest)).charset.possible.Avoids forbidden ↔
      ∀ v ∈ known, ∀ c ∈ (Text.mapCase lower v).toList, forbidden.contains c = false := by
  have hcharset : (g.after (before ++ .caseMap lower :: rest)).charset =
      .oneOf (known.map (Text.mapCase lower)) := by
    rw [after_append, after, List.foldl_cons, ← after, charset_after hrest]
    show ((g.after before).caseMapped lower).charset = _
    unfold caseMapped
    rw [hknown]
    rfl
  rw [hcharset, Charset.avoids_oneOf]
  constructor
  · exact fun h v hv => h _ (TextSet.mem_map.mpr ⟨v, hv, rfl⟩)
  · intro h w hw
    obtain ⟨v, hv, rfl⟩ := TextSet.mem_map.mp hw
    exact h v hv

end TextGuarantee

/-- A sink that accepts a text accepts it after cuts, literals and case mappings, exactly if the
last case mapping leaves no forbidden character in a known value. That is so if no values are known,
and if no literal has a forbidden character. -/
theorem accepted_after_iff {g : TextGuarantee} {k : Sink} {forbidden : CharClass}
    {steps : List TextStep} (hdrawn : g.IsDrawn) (hforbidden : k.forbidden? = some forbidden)
    (haccepted : (Sink.check forbidden g.charset).isOk = true) :
    ((Sink.check forbidden (g.after steps).charset).isOk = true ↔
      ∀ before lower rest, steps = before ++ .caseMap lower :: rest →
        (∀ s ∈ rest, s.isCaseMap = false) → ∀ known, (g.after before).values = some known →
          ∀ v ∈ known, ∀ c ∈ (Text.mapCase lower v).toList, forbidden.contains c = false) ∧
    ((g.values = none ∨ ∀ s ∈ steps, ∀ literal, s.literal? = some literal →
        ∀ c ∈ literal.toList, forbidden.contains c = false) →
      (Sink.check forbidden (g.after steps).charset).isOk = true) := by
  have hmarkup := Sink.isMarkup_forbidden hforbidden
  have haccepts {charset : Charset} :
      (Sink.check forbidden charset).isOk = true ↔ charset.possible.Avoids forbidden :=
    Sink.check_isOk_iff hmarkup.nonempty
  rw [haccepts] at haccepted
  rw [haccepts]
  have hclear := hdrawn.isClear haccepted
  refine ⟨⟨?_, ?_⟩, fun hliteral =>
    (TextGuarantee.isClear_after hclear hmarkup.letterless hliteral).charset⟩
  · rintro h before lower rest rfl hrest known hknown
    exact (TextGuarantee.avoids_after_caseMap_iff hrest hknown).mp h
  · intro h
    rcases TextGuarantee.exists_last_caseMap steps with hnone | ⟨before, lower, rest, rfl, hrest⟩
    · rw [TextGuarantee.charset_after hnone]
      exact haccepted
    · cases hknown : (g.after before).values with
      | some known =>
        exact (TextGuarantee.avoids_after_caseMap_iff hrest hknown).mpr
          (h before lower rest rfl hrest known hknown)
      | none =>
        have hvalues := TextGuarantee.values_after_eq_none_iff.mp hknown
        exact (TextGuarantee.isClear_after hclear hmarkup.letterless (.inl hvalues)).charset

/-- Two columns that a table can be sorted by. -/
def sortColumns : TextGuarantee := .oneOf (.ofList ["Name", "Size"])

/-- A literal in front is mapped with the columns and has no markup, and one behind has markup and
is not mapped. -/
theorem accepted_after_sortColumns :
    sortColumns.IsDrawn ∧ (Sink.check (.ofText "<>&\"'") sortColumns.charset).isOk = true ∧
      (Sink.check (.ofText "<>&\"'") (sortColumns.after
        [.prepend "By ", .caseMap true, .append "<br>", .truncate 10]).charset).isOk = true := by
  have hdrawn : sortColumns.IsDrawn := TextGuarantee.isDrawn_oneOf _
  have haccepted : (Sink.check (.ofText "<>&\"'") sortColumns.charset).isOk = true := by decide
  refine ⟨hdrawn, haccepted, (accepted_after_iff (k := .htmlBody) hdrawn rfl haccepted).1.mpr ?_⟩
  intro before lower rest hsteps hrest known hknown
  -- the only case mapping is the second operation
  rcases before with _ | ⟨s, _ | ⟨t, before⟩⟩
  · cases hsteps
  · cases hsteps
    obtain rfl := Option.some.inj hknown
    have hclear : ["By Name", "By Size"].all (fun v => (Text.mapCase true v).toList.all
        fun c => (CharClass.ofText "<>&\"'").contains c = false) = true := by
      decide +kernel
    intro v hv c hc
    exact of_decide_eq_true (List.all_eq_true.mp (List.all_eq_true.mp hclear v hv) c hc)
  · have hlast : TextStep.caseMap lower ∈ [.append "<br>", .truncate 10] := by
      rw [(List.cons.inj (List.cons.inj hsteps).2).2]
      exact List.mem_append_right before List.mem_cons_self
    simp at hlast

/-! ## Literals in known values -/

/-- One of two allowed texts behind a literal, in the body of a page. -/
def labelledOption (steps : List Step) : Path :=
  { version := pathVersion
    branches :=
      [{ parent := none, condition := .inAllowList (.ofList ["on", "off"]), outcome := .passed }]
    steps :=
      [⟨.source (.ofText "state"), none⟩, ⟨.guard 0, some 0⟩,
        ⟨.string "concat" [.literal "<b>", .current], some 0⟩] ++ steps ++
          [⟨.sink .htmlBody, some 0⟩] }

def labelling : Classifier :=
  .ofEntries 5 [("concat", .text (.passThrough none)), ("toLowerCase", .text (.caseMap true))]

/-- A mapping to lower case costs an allowed text behind a literal its acceptance, because the
markup of the literal is then taken for that of the text. -/
theorem lowered_literal_refused :
    let g : TextGuarantee := .oneOf (.ofList ["on", "off"])
    g.IsDrawn ∧ (Sink.check (.ofText "<>&\"'") g.charset).isOk = true ∧
      (Sink.check (.ofText "<>&\"'") (g.after [.prepend "<b>"]).charset).isOk = true ∧
      (Sink.check (.ofText "<>&\"'")
        (g.after [.prepend "<b>", .caseMap true]).charset).isOk = false ∧
      (labelling.classify (labelledOption [])).outcome = .safe ∧
      (labelling.classify
        (labelledOption [⟨.string "toLowerCase" [], some 0⟩])).outcome = .unsafeFlow := by
  intro g
  exact ⟨TextGuarantee.isDrawn_oneOf _, by decide, by decide, by decide +kernel,
    by decide +kernel, by decide +kernel⟩

end FlowSafety
