import FlowSafety.Proofs.Walk.Summary

/-!
# Redaction and the raw value

A walk keeps one flag for the whole path that says whether the sensitive source still shows. Masking
or digesting the value that flows clears it for good, also where a later concatenation reads the raw
value again. So a raw value can be reported as redacted, and here it is stated exactly when.

* `Operation.carries` — whether the result of a step shows the raw source
* `Walk.Reached.isSensitive` — the flag holds exactly until a step redacts
-/

namespace FlowSafety

/-! ## Raw values -/

namespace Operation

/-- Whether the operation redacts what flows through it. -/
def redacts (c : Catalogue) : Operation → Bool
  | .string name _ =>
    match c.get? name with
    | some (.text effect) => effect.isRedacting
    | _ => false
  | _ => false

/-- Whether the arguments name a step whose value shows the raw source. -/
def readsRaw (earlier : List Bool) (arguments : List Argument) : Bool :=
  arguments.any fun
    | .step target => earlier[target]?.getD false
    | _ => false

/-- Whether the result shows the raw source, given this of the earlier steps. Masking and digesting
hide it; a case mapping shows what flows into it, and a concatenation also what it reads. -/
def carries (c : Catalogue) (earlier : List Bool) : Operation → Bool
  | .source _ => true
  | .numeric _ _ => false
  | .string name arguments =>
    match c.get? name with
    | some (.text (.passThrough _)) => earlier.getLast?.getD false || readsRaw earlier arguments
    | some (.text (.caseMap _)) => earlier.getLast?.getD false
    | _ => false
  | .guard _ => earlier.getLast?.getD false
  | .sink _ => earlier.getLast?.getD false

/-- The operation names no step. -/
def namesNoStep : Operation → Bool
  | .string _ arguments => arguments.all fun a => (Path.argumentTarget a).isNone
  | _ => true

end Operation

/-- Which of the steps give a value that shows the raw source. -/
def carriers (c : Catalogue) (ss : List Step) : List Bool :=
  ss.foldl (fun earlier s => earlier ++ [s.op.carries c earlier]) []

theorem carriers_concat (c : Catalogue) (ss : List Step) (s : Step) :
    carriers c (ss ++ [s]) = carriers c ss ++ [s.op.carries c (carriers c ss)] := by
  unfold carriers
  rw [List.foldl_concat]

theorem readsRaw_of_namesNoStep {arguments : List Argument} {name : String} {earlier : List Bool}
    (h : (Operation.string name arguments).namesNoStep = true) :
    Operation.readsRaw earlier arguments = false := by
  unfold Operation.readsRaw
  rw [List.any_eq_false]
  intro a ha
  have hnone := List.all_eq_true.mp h a ha
  cases a with
  | step target => contradiction
  | _ => exact Bool.false_ne_true

/-- Without a reference to an earlier step, an operation shows the raw source only if it redacts
nothing and the value before shows it. -/
theorem Operation.not_redacts_of_carries {c : Catalogue} {op : Operation} {earlier : List Bool}
    (hop : ∀ src, op ≠ .source src) (hnames : op.namesNoStep = true)
    (h : op.carries c earlier = true) :
    op.redacts c = false ∧ earlier.getLast?.getD false = true := by
  cases op with
  | source src => exact absurd rfl (hop src)
  | numeric o operands => contradiction
  | string name arguments =>
    unfold carries at h
    unfold redacts
    simp only at h ⊢
    split at h
    · next heffect =>
      rw [readsRaw_of_namesNoStep hnames, Bool.or_false] at h
      rw [heffect]
      exact ⟨rfl, h⟩
    · next heffect =>
      rw [heffect]
      exact ⟨rfl, h⟩
    · contradiction
  | guard id => exact ⟨rfl, h⟩
  | sink k => exact ⟨rfl, h⟩

/-- Where no step is named, a value that shows the raw source has not been redacted. -/
theorem not_redacts_of_carriers {c : Catalogue} {s₀ : Step} {ss : List Step}
    (hsource : ∀ s ∈ ss, ∀ src, s.op ≠ .source src) (hnames : ∀ s ∈ ss, s.op.namesNoStep = true)
    (hcarries : (carriers c (s₀ :: ss)).getLast? = some true) :
    ∀ s ∈ ss, s.op.redacts c = false := by
  -- the last step shows the raw source, hence the one before it does
  induction ss using List.reverseRecOn with
  | nil => exact fun s hs => by simp at hs
  | append_singleton ss s ih =>
    have hsub : ∀ s' ∈ ss, s' ∈ ss ++ [s] := fun s' => List.mem_append_left [s]
    have hs : s ∈ ss ++ [s] := List.mem_append_right ss List.mem_cons_self
    rw [← List.cons_append, carriers_concat, List.getLast?_concat, Option.some.injEq] at hcarries
    obtain ⟨hstep, hbefore⟩ :=
      Operation.not_redacts_of_carries (hsource s hs) (hnames s hs) hcarries
    have hlast : (carriers c (s₀ :: ss)).getLast? = some true := by
      cases hl : (carriers c (s₀ :: ss)).getLast? with
      | none =>
        rw [hl] at hbefore
        contradiction
      | some b =>
        rw [hl] at hbefore
        exact congrArg some hbefore
    intro s' hs'
    rcases List.mem_append.mp hs' with hs' | hs'
    · exact ih (fun t ht => hsource t (hsub t ht)) (fun t ht => hnames t (hsub t ht)) hlast s' hs'
    · obtain rfl := List.mem_singleton.mp hs'
      exact hstep

namespace Walk

variable {p : Path} {c : Catalogue} {w w' : Walk} {index : Nat} {why : String}

/-! ## The flag -/

theorem redact_isSensitive (w : Walk) (index : Nat) (effect : TextEffect) :
    (w.redact index effect).isSensitive = (w.isSensitive && !effect.isRedacting) := by
  unfold redact
  cases effect.isRedacting <;> cases hw : w.isSensitive <;> simp [hw]

theorem redact_sourceIsSensitive (w : Walk) (index : Nat) (effect : TextEffect) :
    (w.redact index effect).sourceIsSensitive = w.sourceIsSensitive := by
  unfold redact
  split <;> rfl

/-- Behind the source only a redacting step changes the flag. -/
theorem apply_isSensitive {op : Operation} (h : w.apply p c index op = .ok (w', why))
    (hop : ∀ src, op ≠ .source src) :
    w'.sourceIsSensitive = w.sourceIsSensitive ∧
      w'.isSensitive = (w.isSensitive && !op.redacts c) := by
  have hkeep : w.isSensitive = (w.isSensitive && !false) := by simp
  cases op with
  | source s => exact absurd rfl (hop s)
  | numeric o operands =>
    rcases applyNumeric_eq_ok h with ⟨name, _, rfl⟩ | ⟨_, _, _, _, _, _, rfl⟩
    · exact ⟨rfl, hkeep⟩
    · exact ⟨rfl, hkeep⟩
  | string name arguments =>
    rcases applyText_eq_ok h with ⟨hnone, rfl⟩ | ⟨effect, _, _, _, heffect, _, _, rfl⟩
    · simp only [Operation.redacts, hnone]
      exact ⟨rfl, hkeep⟩
    · simp only [Operation.redacts, heffect]
      exact ⟨redact_sourceIsSensitive _ _ _, redact_isSensitive _ _ _⟩
  | guard id =>
    obtain ⟨_, _, _, _, _, _, _, _, rfl⟩ := enterBranch_eq_ok h
    exact ⟨rfl, hkeep⟩
  | sink k =>
    obtain ⟨rfl, -⟩ := Prod.mk.inj (Except.ok.inj h)
    exact ⟨rfl, hkeep⟩

/-- The flag of a sensitive source holds until a step redacts, whatever later steps read. -/
theorem Reached.isSensitive {src : Source} {branch : Option Nat} {ss : List Step}
    (h : Reached p c (⟨.source src, branch⟩ :: ss) w) (hsrc : src.isSensitive = true)
    (hsource : ∀ s ∈ ss, ∀ src, s.op ≠ .source src) :
    w.sourceIsSensitive = true ∧ w.isSensitive = ss.all fun s => !s.op.redacts c := by
  induction ss using List.reverseRecOn generalizing w with
  | nil =>
    have hconcat : Reached p c ([] ++ [⟨.source src, branch⟩]) w := h
    obtain ⟨w₀, _, hstep⟩ := hconcat.of_concat
    obtain ⟨w₁, _, _, _, happly, _, rfl⟩ := step_eq_ok hstep
    obtain ⟨rfl, -⟩ := Prod.mk.inj (Except.ok.inj happly)
    exact ⟨hsrc, hsrc⟩
  | append_singleton ss s ih =>
    rw [← List.cons_append] at h
    obtain ⟨w₀, hw₀, hstep⟩ := h.of_concat
    obtain ⟨hsensitive, hflag⟩ := ih hw₀ fun t ht => hsource t (List.mem_append_left _ ht)
    obtain ⟨w₁, _, _, _, happly, _, rfl⟩ := step_eq_ok hstep
    obtain ⟨hsource', hflag'⟩ := apply_isSensitive happly
      (hsource s (List.mem_append_right _ List.mem_cons_self))
    refine ⟨hsource'.trans hsensitive, hflag'.trans ?_⟩
    rw [List.all_append, ← hflag, List.all_cons, List.all_nil, Bool.and_true]

end Walk

namespace Path

variable {p : Path} {c : Catalogue} {limit : Option Nat} {s : Summary} {src : Source}
  {branch : Option Nat}

/-- At the end of a path from a sensitive source, the flag is cleared exactly if a step redacts. -/
theorem flags_of_summarize (hs : p.summarize c limit = .ok s)
    (hsource : p.steps.head? = some ⟨.source src, branch⟩) (hsensitive : src.isSensitive = true) :
    s.sourceIsSensitive = true ∧
      (s.isSensitive = false ↔ ∃ step ∈ p.steps, step.op.redacts c = true) := by
  obtain ⟨hvalid, w, hw, hfinish⟩ := summarize_eq_ok hs
  obtain ⟨src', branch', ss, hsteps, hnone⟩ := source_of_validate hvalid
  rw [hsteps, List.head?_cons, Option.some.injEq, Step.mk.injEq, Operation.source.injEq] at hsource
  obtain ⟨rfl, rfl⟩ := hsource
  obtain ⟨hsourceflag, hflag⟩ := Walk.Reached.isSensitive (hsteps ▸ hw) hsensitive hnone
  obtain ⟨l, ls, -, rfl⟩ := Walk.finish_eq_ok hfinish
  refine ⟨hsourceflag, ?_⟩
  show w.isSensitive = false ↔ _
  rw [hflag, List.all_eq_false, hsteps]
  constructor
  · rintro ⟨step, hstep, hredacts⟩
    exact ⟨step, List.mem_cons_of_mem _ hstep, by simpa using hredacts⟩
  · rintro ⟨step, hstep, hredacts⟩
    rcases List.mem_cons.mp hstep with rfl | hstep
    · contradiction
    · exact ⟨step, hstep, by simpa using hredacts⟩

/-- Where no step is named and the last value shows the raw source, no step redacts. -/
theorem not_redacts_of_carries (hs : p.summarize c limit = .ok s)
    (hnames : ∀ step ∈ p.steps, step.op.namesNoStep = true)
    (hcarries : (carriers c p.steps).getLast? = some true) :
    ∀ step ∈ p.steps, step.op.redacts c = false := by
  obtain ⟨hvalid, -⟩ := summarize_eq_ok hs
  obtain ⟨src, branch, ss, hsteps, hnone⟩ := source_of_validate hvalid
  rw [hsteps] at hnames hcarries ⊢
  intro step hstep
  rcases List.mem_cons.mp hstep with rfl | hstep
  · rfl
  · exact not_redacts_of_carriers hnone (fun t ht => hnames t (List.mem_cons_of_mem _ ht))
      hcarries step hstep

end Path

/-! ## Verdicts -/

namespace StringSink

variable {k : Sink} {s : Summary} {disclosing : List Sink} {g : TextGuarantee}

/-- On the injection axis a text without a guarantee is safe only where nothing is forbidden. -/
theorem injection_unconstrained (hvalue : s.value = .text g)
    (hcharset : g.charset = .unconstrained) :
    (injection k s).outcome = .safe ↔ k.forbidden? = none := by
  constructor
  · intro h
    cases hk : k.forbidden? with
    | none => rfl
    | some forbidden =>
      obtain ⟨-, why, hwhy⟩ := injection_safe h hk
      have hg : (renderedGuarantee s.value).1.charset = .unconstrained := by
        rw [hvalue]
        exact hcharset
      rw [hg] at hwhy
      contradiction
  · exact injection_safe_of_unforbidden

/-- On the disclosure axis a text without a guarantee is safe only where the flag is cleared. -/
theorem disclosure_unconstrained (hvalue : s.value = .text g)
    (hcharset : g.charset = .unconstrained) (hsource : s.sourceIsSensitive = true)
    (hk : k ∈ disclosing) :
    ∃ a, disclosure? k s disclosing = some a ∧ (a.outcome = .safe ↔ s.isSensitive = false) := by
  have hopen : isUnconstrained s.value = true := by
    rw [hvalue, isUnconstrained, TextGuarantee.isUnconstrained, hcharset]
    rfl
  have hcontains : disclosing.contains k = true := List.contains_iff_mem.mpr hk
  unfold disclosure?
  simp only [hsource, hcontains, hopen, Bool.not_true, Bool.or_self, Bool.false_eq_true, if_false]
  cases hflag : s.isSensitive with
  | false =>
    refine ⟨_, rfl, ?_⟩
    exact ⟨fun _ => rfl, fun _ => rfl⟩
  | true =>
    cases s.pending with
    | none => exact ⟨_, rfl, ⟨fun h => by contradiction, fun h => by contradiction⟩⟩
    | some name => exact ⟨_, rfl, ⟨fun h => by contradiction, fun h => by contradiction⟩⟩

theorem classify_unconstrained (hvalue : s.value = .text g)
    (hcharset : g.charset = .unconstrained) (hsource : s.sourceIsSensitive = true)
    (hk : k ∈ disclosing) :
    (classify k s disclosing).outcome = .safe ↔ k.forbidden? = none ∧ s.isSensitive = false := by
  obtain ⟨a, ha, hdisclosure⟩ := disclosure_unconstrained hvalue hcharset hsource hk
  unfold classify
  rw [ha, ← injection_unconstrained (k := k) hvalue hcharset, ← hdisclosure]
  exact Outcome.worst_eq_safe

end StringSink

theorem Sink.unforbidden_iff {k : Sink} (hk : k.takesText = true) :
    k.forbidden? = none ↔ k = .logRecord ∨ k = .rawFileWrite := by
  cases k with
  | loopBound => contradiction
  | logRecord => exact ⟨fun _ => Or.inl rfl, fun _ => rfl⟩
  | rawFileWrite => exact ⟨fun _ => Or.inr rfl, fun _ => rfl⟩
  | _ => exact ⟨fun h => by contradiction, fun h => by rcases h with h | h <;> contradiction⟩

/-- A value of a sensitive source that shows the raw source and has no guarantee is safe at a
disclosing sink exactly if the sink forbids no characters and some step on the way has redacted,
even though the value shows the raw source again. If no step refers to an earlier one, the value is
never safe. -/
theorem raw_value_safe_iff {c : Classifier} {p : Path} {k : Sink} {s : Summary}
    {g : TextGuarantee} {src : Source} {branch : Option Nat} (hs : c.summarize p = .ok s)
    (hsource : p.steps.head? = some ⟨.source src, branch⟩) (hsensitive : src.isSensitive = true)
    (hsink : p.sink? = some k) (hk : k ∈ c.policy.disclosing)
    (hcarries : (carriers c.catalogue p.steps).getLast? = some true) (hvalue : s.value = .text g)
    (hcharset : g.charset = .unconstrained) :
    ((c.classify p).outcome = .safe ↔
      (k = .logRecord ∨ k = .rawFileWrite) ∧
        ∃ step ∈ p.steps, step.op.redacts c.catalogue = true) ∧
    ((∀ step ∈ p.steps, step.op.namesNoStep = true) → (c.classify p).outcome ≠ .safe) := by
  obtain ⟨hsourceflag, hcleared⟩ := Path.flags_of_summarize hs hsource hsensitive
  have hiff : (c.classify p).outcome = .safe ↔
      (k = .logRecord ∨ k = .rawFileWrite) ∧
        ∃ step ∈ p.steps, step.op.redacts c.catalogue = true := by
    by_cases htext : k.takesText = true
    · rw [Classifier.classify_safe_of_takesText hs hsink htext,
        StringSink.classify_unconstrained hvalue hcharset hsourceflag hk,
        Sink.unforbidden_iff htext, hcleared]
    · obtain rfl : k = .loopBound := by
        cases k with
        | loopBound => rfl
        | _ => contradiction
      constructor
      · intro hsafe
        obtain ⟨iv, hv, -⟩ := Classifier.exists_integer_of_classify_safe hs hsink hsafe
        rw [hvalue] at hv
        contradiction
      · rintro ⟨h | h, -⟩ <;> contradiction
  refine ⟨hiff, ?_⟩
  intro hnames hsafe
  obtain ⟨-, step, hstep, hredacts⟩ := hiff.mp hsafe
  have hnot := Path.not_redacts_of_carries hs hnames hcarries step hstep
  rw [hnot] at hredacts
  contradiction

/-- A mask and two transforms that leave characters alone. -/
def redacting : Classifier :=
  .ofEntries 1000
    [("concat", .text (.passThrough none)), ("mask", .text (.mask 4 '*')),
      ("toLowerCase", .text (.caseMap true))]

/-- A secret that is logged in lower case. -/
def loweredSecret : Path :=
  { version := pathVersion
    branches := []
    steps :=
      [⟨.source (.sensitive (.ofText "ssn")), none⟩, ⟨.string "toLowerCase" [], none⟩,
        ⟨.sink .logRecord, none⟩] }

theorem loweredSecret_not_safe : (redacting.classify loweredSecret).outcome ≠ .safe := by
  have hvalue : (redacting.summarize loweredSecret).toOption.bind (·.value.guarantee?) =
      some .unconstrained := by
    decide
  cases hs : redacting.summarize loweredSecret with
  | error f =>
    rw [hs] at hvalue
    contradiction
  | ok s =>
    rw [hs] at hvalue
    have hguarantee : s.value.guarantee? = some .unconstrained := hvalue
    cases hv : s.value with
    | integer iv =>
      rw [hv] at hguarantee
      contradiction
    | text g =>
      rw [hv] at hguarantee
      obtain rfl := Option.some.inj hguarantee
      exact (raw_value_safe_iff hs rfl rfl rfl (by decide) (by decide) hv rfl).2
        (by decide)

/-! ## A raw value that is read again -/

/-- A secret that is masked and then put behind its mask again. -/
def rereadSecret : Path :=
  { version := pathVersion
    branches := []
    steps :=
      [⟨.source (.sensitive (.ofText "ssn")), none⟩, ⟨.string "mask" [], none⟩,
        ⟨.string "concat" [.step 0], none⟩, ⟨.sink .logRecord, none⟩] }

/-- The logged text shows the secret and has no guarantee, but the path is reported as redacted. -/
theorem raw_value_reported_redacted :
    rereadSecret.sink? = some .logRecord ∧ .logRecord ∈ redacting.policy.disclosing ∧
      carriers redacting.catalogue rereadSecret.steps = [true, false, true, true] ∧
      (redacting.summarize rereadSecret).toOption.map (·.value) = some (.text .unconstrained) ∧
      (redacting.classify rereadSecret).outcome = .safe := by
  refine ⟨rfl, by decide, by decide, by decide, by decide⟩

end FlowSafety
