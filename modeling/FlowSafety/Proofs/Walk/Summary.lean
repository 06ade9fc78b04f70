import FlowSafety.Proofs.Path.Validation
import FlowSafety.Proofs.Verdict.Review
import FlowSafety.Proofs.Walk.Step

/-!
# From walks to verdicts

A verdict of a classifier goes back to the walk along the path: it is safe exactly if the walk
succeeds, its summary can be assessed, and the assessment is safe.

* `Path.summarize_eq_ok` — the summary of a path is that of the walk after its last step
* `Classifier.classify_outcome_safe` — what a safe verdict says
* `Classifier.injection_safe_of_classify_safe` — the same at a sink that forbids characters
* `Classifier.exists_integer_of_classify_safe` — the same at a loop bound
-/

namespace FlowSafety

/-! ## Summaries -/

namespace Walk

variable {p : Path} {c : Catalogue} {w w' : Walk} {index : Nat} {why : String}

theorem finish_eq_ok {s : Summary} (h : w.finish p = .ok s) :
    ∃ l ls, w.levels = l :: ls ∧ s =
      { value := l.value, sink := w.sink, trace := w.trace, notes := w.notes, pending := l.pending
        source := w.source, sourceIsSensitive := w.sourceIsSensitive, isSensitive := w.isSensitive
        redactedAt := w.redactedAt, boundingStep := l.boundingStep
        guaranteeStep := l.guaranteeStep } := by
  unfold finish at h
  split at h
  · contradiction
  · next l ls hls => exact ⟨l, ls, hls, (Except.ok.inj h).symm⟩

end Walk

theorem Path.summarize_eq_ok {p : Path} {c : Catalogue} {limit : Option Nat} {s : Summary}
    (h : p.summarize c limit = .ok s) :
    p.validate = .ok () ∧ ∃ w, Walk.Reached p c p.steps w ∧ w.finish p = .ok s := by
  unfold Path.summarize at h
  obtain ⟨⟨⟩, hvalid, h⟩ := bind_eq_ok.mp h
  obtain ⟨-, -, h⟩ := bind_eq_ok.mp h
  obtain ⟨w, hw, h⟩ := bind_eq_ok.mp h
  exact ⟨hvalid, w, Walk.reached_of_steps hw, h⟩

/-- What a summary says of the value is what the walk knows on its innermost level. -/
theorem Path.exists_level_of_summarize {p : Path} {c : Catalogue} {limit : Option Nat} {s : Summary}
    (h : p.summarize c limit = .ok s) :
    ∃ w, Walk.Reached p c p.steps w ∧
      ∃ l ∈ w.levels, l.value = s.value ∧ l.pending = s.pending := by
  obtain ⟨-, w, hw, hfinish⟩ := Path.summarize_eq_ok h
  obtain ⟨l, ls, hls, rfl⟩ := Walk.finish_eq_ok hfinish
  exact ⟨w, hw, l, hls ▸ List.mem_cons_self, rfl, rfl⟩

/-! ## Sinks -/

namespace Walk

variable {p : Path} {c : Catalogue} {w w' : Walk} {index : Nat} {why : String}

theorem step_sink {s : Step} {k : Sink} (h : w.step p c index s = .ok w') (hs : s.op = .sink k) :
    w'.sink = some k := by
  obtain ⟨w₁, _, _, _, happly, _, rfl⟩ := step_eq_ok h
  rw [hs] at happly
  obtain ⟨rfl, -⟩ := Prod.mk.inj (Except.ok.inj happly)
  rfl

end Walk

theorem Path.steps_of_sink? {p : Path} {k : Sink} (h : p.sink? = some k) :
    ∃ ss branch, p.steps = ss ++ [⟨.sink k, branch⟩] := by
  unfold Path.sink? at h
  split at h
  · next k' branch hlast =>
    obtain rfl := Option.some.inj h
    exact ⟨_, branch, (List.getLast?_eq_some_iff.mp hlast).choose_spec⟩
  · contradiction

/-! ## Verdicts -/

/-- A loop bound is safe if no value reaches the loop, or none above the ceiling. -/
theorem LoopBound.check_outcome_safe {iv : Interval} {ceiling : Nat} {boundingStep : Option Nat} :
    (check iv ceiling boundingStep).outcome = .safe ↔
      iv.isEmpty = true ∨ iv.high < .finite 0 ∨ iv.high ≤ .ofCount ceiling := by
  unfold check
  by_cases hempty : iv.isEmpty = true
  · simp [hempty]
  · by_cases hneg : iv.high < .finite 0
    · simp [hempty, hneg]
    · by_cases hle : iv.high ≤ .ofCount ceiling
      · simp [hempty, hneg, hle]
      · simp only [hempty, hneg, hle, Bool.false_eq_true, if_false, or_self, iff_false]
        split <;> simp

/-- Which step bounds the value is only reported. -/
theorem LoopBound.check_outcome_congr {iv : Interval} {ceiling : Nat} {step step' : Option Nat} :
    (check iv ceiling step).outcome = (check iv ceiling step').outcome := by
  unfold check
  split_ifs <;> rfl

theorem Outcome.worst_eq_safe {a b : Outcome} : a.worst b = .safe ↔ a = .safe ∧ b = .safe := by
  cases a <;> cases b <;> simp [Outcome.worst]

namespace StringSink

variable {k : Sink} {s : Summary} {disclosing : List Sink}

/-- A safe decision on both axes is safe on that of injection. -/
theorem injection_safe_of_classify (h : (classify k s disclosing).outcome = .safe) :
    (injection k s).outcome = .safe := by
  unfold classify at h
  split at h
  · exact (Outcome.worst_eq_safe.mp h).1
  · exact h

theorem injection_outcome :
    (injection k s).outcome =
      (injectionOutcome k s.pending (renderedGuarantee s.value).1.charset).1 := rfl

theorem injection_outcome_congr {s' : Summary} (hvalue : s.value = s'.value)
    (hpending : s.pending = s'.pending) : (injection k s).outcome = (injection k s').outcome := by
  rw [injection_outcome, injection_outcome, hvalue, hpending]

theorem disclosure_outcome_congr {s' : Summary} (hvalue : s.value = s'.value)
    (hpending : s.pending = s'.pending) (hsource : s.sourceIsSensitive = s'.sourceIsSensitive)
    (hsensitive : s.isSensitive = s'.isSensitive) :
    (disclosure? k s disclosing).map (·.outcome) =
      (disclosure? k s' disclosing).map (·.outcome) := by
  unfold disclosure?
  rw [hvalue, hpending, hsource, hsensitive]
  split_ifs
  · rfl
  · rfl
  · rfl
  · cases s'.pending with
    | none => rfl
    | some _ => rfl

theorem classify_outcome_congr {s' : Summary} (hvalue : s.value = s'.value)
    (hpending : s.pending = s'.pending) (hsource : s.sourceIsSensitive = s'.sourceIsSensitive)
    (hsensitive : s.isSensitive = s'.isSensitive) :
    (classify k s disclosing).outcome = (classify k s' disclosing).outcome := by
  have hinjection := injection_outcome_congr (k := k) hvalue hpending
  have hdisclosure : (disclosure? k s disclosing).map (·.outcome) =
      (disclosure? k s' disclosing).map (·.outcome) :=
    disclosure_outcome_congr hvalue hpending hsource hsensitive
  unfold classify
  cases hd : disclosure? k s disclosing with
  | none =>
    rw [hd] at hdisclosure
    rw [Option.map_eq_none_iff.mp hdisclosure.symm]
    exact hinjection
  | some d =>
    rw [hd] at hdisclosure
    obtain ⟨d', hd', houtcome⟩ := Option.map_eq_some_iff.mp hdisclosure.symm
    rw [hd']
    show (injection k s).outcome.worst d.outcome = (injection k s').outcome.worst d'.outcome
    rw [hinjection, houtcome]

theorem injection_safe_of_unforbidden (hk : k.forbidden? = none) :
    (injection k s).outcome = .safe := by
  rw [injection_outcome]
  unfold injectionOutcome
  rw [hk]

/-- Where a sink forbids characters, it is safe only if no name is pending and the charset proves
the characters absent. -/
theorem injection_safe {forbidden : CharClass} (h : (injection k s).outcome = .safe)
    (hk : k.forbidden? = some forbidden) :
    s.pending = none ∧
      ∃ why, Sink.check forbidden (renderedGuarantee s.value).1.charset = .ok why := by
  rw [injection_outcome] at h
  unfold injectionOutcome at h
  rw [hk] at h
  cases hp : s.pending with
  | some name =>
    rw [hp] at h
    contradiction
  | none =>
    rw [hp] at h
    simp only at h
    split at h
    · next why hwhy => exact ⟨rfl, why, hwhy⟩
    · contradiction

end StringSink

theorem Sink.takesText_of_forbidden {k : Sink} {forbidden : CharClass}
    (h : k.forbidden? = some forbidden) : k.takesText = true := by
  cases k with
  | loopBound => contradiction
  | _ => rfl

namespace Classifier

/-- A few transforms with a ceiling. -/
def ofEntries (ceiling : Nat) (entries : List (String × Effect)) : Classifier :=
  { policy := .withCeiling ceiling, ceiling := ceiling, catalogue := .ofList entries }

variable {c : Classifier} {p : Path} {s : Summary} {k : Sink}

theorem summarize_sink (h : c.summarize p = .ok s) (hk : p.sink? = some k) : s.sink = some k := by
  obtain ⟨-, w, hw, hs⟩ := Path.summarize_eq_ok h
  obtain ⟨l, ls, -, rfl⟩ := Walk.finish_eq_ok hs
  obtain ⟨ss, branch, hsteps⟩ := Path.steps_of_sink? hk
  rw [hsteps] at hw
  obtain ⟨w₀, -, hstep⟩ := hw.of_concat
  exact Walk.step_sink hstep rfl

/-- The outcome of the decision about a summary. -/
def outcomeOf (c : Classifier) (s : Summary) : Outcome :=
  match c.assess s with
  | .ok a => a.outcome
  | .error _ => .unknown

/-- The outcome of a verdict is that of the decision about the summary. -/
theorem classify_outcome (hs : c.summarize p = .ok s) :
    (c.classify p).outcome = c.outcomeOf s := by
  rw [Review.classify_eq, hs, outcomeOf]
  dsimp only
  cases c.assess s <;> rfl

theorem classify_outcome_of_error {f : Fault} (hs : c.summarize p = .error f) :
    (c.classify p).outcome = .unknown := by
  rw [Review.classify_eq, hs]
  rfl

theorem outcomeOf_safe :
    c.outcomeOf s = .safe ↔ ∃ a, c.assess s = .ok a ∧ a.outcome = .safe := by
  unfold outcomeOf
  cases c.assess s with
  | error f => exact ⟨fun h => (nomatch h), fun ⟨_, h, _⟩ => (nomatch h)⟩
  | ok a => exact ⟨fun h => ⟨a, rfl, h⟩, fun ⟨_, h, ha⟩ => by cases h; exact ha⟩

/-- A path is safe exactly if it has a summary whose assessment is safe. -/
theorem classify_outcome_safe :
    (c.classify p).outcome = .safe ↔
      ∃ s a, c.summarize p = .ok s ∧ c.assess s = .ok a ∧ a.outcome = .safe := by
  cases hs : c.summarize p with
  | error f =>
    rw [classify_outcome_of_error hs]
    exact ⟨fun h => (nomatch h), fun ⟨_, _, h, _⟩ => (nomatch h)⟩
  | ok s =>
    rw [classify_outcome hs, outcomeOf_safe]
    exact ⟨fun ⟨a, ha, h⟩ => ⟨s, a, rfl, ha, h⟩, fun ⟨_, a, hs', ha, h⟩ => by
      cases hs'
      exact ⟨a, ha, h⟩⟩

/-- The outcome rests on the value, what is pending, the sink and the sensitivity. -/
theorem outcomeOf_congr {s' : Summary} (hvalue : s.value = s'.value)
    (hpending : s.pending = s'.pending) (hsink : s.sink = s'.sink)
    (hsource : s.sourceIsSensitive = s'.sourceIsSensitive)
    (hsensitive : s.isSensitive = s'.isSensitive) : c.outcomeOf s = c.outcomeOf s' := by
  unfold outcomeOf assess
  rw [← hsink]
  cases s.sink with
  | none => rfl
  | some k =>
    simp only
    by_cases hk : k.takesText = true
    · simp only [hk, if_true]
      exact StringSink.classify_outcome_congr hvalue hpending hsource hsensitive
    · simp only [hk]
      unfold LoopBound.checkSummary?
      rw [← hvalue]
      cases s.value.interval? with
      | none => rfl
      | some iv => exact LoopBound.check_outcome_congr

theorem assess_of_takesText (hsink : s.sink = some k) (hk : k.takesText = true) :
    c.assess s = .ok (StringSink.classify k s c.policy.disclosing) := by
  unfold assess
  rw [hsink]
  simp only [hk, if_true]

theorem assess_of_loopBound {a : Assessment} (hsink : s.sink = some .loopBound)
    (h : c.assess s = .ok a) :
    ∃ iv, s.value = .integer iv ∧ a = LoopBound.check iv c.ceiling s.boundingStep := by
  unfold assess at h
  rw [hsink] at h
  simp only [Sink.takesText, ne_eq, not_true, decide_false, Bool.false_eq_true, if_false] at h
  unfold LoopBound.checkSummary? at h
  cases hv : s.value with
  | integer iv =>
    rw [hv] at h
    exact ⟨iv, rfl, (Except.ok.inj h).symm⟩
  | text g =>
    rw [hv] at h
    contradiction

/-- At a sink that takes text the verdict is that on strings. -/
theorem classify_safe_of_takesText (hs : c.summarize p = .ok s) (hsink : p.sink? = some k)
    (hk : k.takesText = true) :
    (c.classify p).outcome = .safe ↔
      (StringSink.classify k s c.policy.disclosing).outcome = .safe := by
  have hassess := assess_of_takesText (c := c) (summarize_sink hs hsink) hk
  rw [classify_outcome_safe]
  constructor
  · rintro ⟨s', a, hs', ha, hsafe⟩
    obtain rfl := Except.ok.inj (hs.symm.trans hs')
    obtain rfl := Except.ok.inj (hassess.symm.trans ha)
    exact hsafe
  · intro hsafe
    exact ⟨s, _, hs, hassess, hsafe⟩

/-- At a sink that forbids characters a safe verdict says that no name is pending, and that the
charset proves the characters absent. -/
theorem injection_safe_of_classify_safe {forbidden : CharClass} (hs : c.summarize p = .ok s)
    (hsink : p.sink? = some k) (hk : k.forbidden? = some forbidden)
    (h : (c.classify p).outcome = .safe) :
    s.pending = none ∧
      ∃ why, Sink.check forbidden (StringSink.renderedGuarantee s.value).1.charset = .ok why := by
  rw [classify_safe_of_takesText hs hsink (Sink.takesText_of_forbidden hk)] at h
  exact StringSink.injection_safe (StringSink.injection_safe_of_classify h) hk

/-- At a loop bound a safe verdict is that of the check on an integer. -/
theorem exists_integer_of_classify_safe (hs : c.summarize p = .ok s)
    (hsink : p.sink? = some .loopBound) (h : (c.classify p).outcome = .safe) :
    ∃ iv, s.value = .integer iv ∧
      (LoopBound.check iv c.ceiling s.boundingStep).outcome = .safe := by
  obtain ⟨s', a, hs', ha, hsafe⟩ := classify_outcome_safe.mp h
  obtain rfl := Except.ok.inj (hs.symm.trans hs')
  obtain ⟨iv, hvalue, rfl⟩ := assess_of_loopBound (summarize_sink hs hsink) ha
  exact ⟨iv, hvalue, hsafe⟩

end Classifier

end FlowSafety
