import FlowSafety.Classifier

/-!
# Runs of a review

A review takes calls in any number and order. It goes on at a call that is in order, and refuses any
other call. An assessment and a demand for the verdict take the stage out of the review first, and
put it back when they are refused. So the calls that the review has taken tell its stage, and once
there is a verdict it is final.

* `Review.act_cases` — a call moves the review on, or is refused
* `Review.Explains`, `Review.explains_afterAll` — the calls that led to a stage
* `Review.runs_in_order` — all of it, for every run
-/

namespace FlowSafety

namespace Review

/-- A call on a review. -/
inductive Call where
  | recordSummary (result : Except Fault Summary)
  | recordAssessment (result : Except Fault Assessment)
  | finish

/-- What the call does to a path, in the words of a fault. -/
def Call.action : Call → String
  | .recordSummary _ => "abstract"
  | .recordAssessment _ => "classify"
  | .finish => "finish"

/-- The call is in order at the stage. -/
def Call.fits : Call → Stage → Bool
  | .recordSummary _, .pending => true
  | .recordAssessment _, .abstracted _ => true
  | .finish, .classified .. => true
  | .finish, .verdicted _ => true
  | _, _ => false

variable {sink : Option Sink} {r : Review} {call : Call} {calls more taken : List Call}
  {stage stage' : Stage} {v : Verdict}

/-! ## Single calls -/

/-- What the call does, and the verdict that it answers with. -/
def Call.act : Call → Action Review (Option Verdict)
  | .recordSummary result => do
    Transition.recordSummary result
    return none
  | .recordAssessment result => do
    Transition.recordAssessment result
    return none
  | .finish => do
    return some (← Transition.finish)

/-- The review that a call leaves behind, whether it is refused or not. -/
def after (r : Review) (call : Call) : Review := call.act.left r

/-- How a call that is in order moves a review from stage to stage. -/
inductive Moves (sink : Option Sink) : Stage → Call → Stage → Prop
  | summary (s : Summary) : Moves sink .pending (.recordSummary (.ok s)) (.abstracted s)
  | noSummary (f : Fault) :
    Moves sink .pending (.recordSummary (.error f)) (.verdicted (.ofFault sink f))
  | assessment (s : Summary) (a : Assessment) :
    Moves sink (.abstracted s) (.recordAssessment (.ok a)) (.classified s a)
  | noAssessment (s : Summary) (f : Fault) :
    Moves sink (.abstracted s) (.recordAssessment (.error f)) (.verdicted (.ofFault sink f))
  | verdict (s : Summary) (a : Assessment) :
    Moves sink (.classified s a) .finish (.verdicted (verdictOf sink s a))
  | again (v : Verdict) : Moves sink (.verdicted v) .finish (.verdicted v)

/-- The verdict that a call hands out at a stage that it has led to. -/
def Call.handedOut : Call → Stage → Option Verdict
  | .finish, .verdicted v => some v
  | _, _ => none

/-- A call that is in order moves the review on. Any other one is refused, and leaves the review
with the stage that it had. -/
theorem act_cases (r : Review) (call : Call) :
    (call.fits r.stage = true ∧
        call.act.run r = .ok (call.handedOut (r.after call).stage) (r.after call) ∧
        Moves r.sink r.stage call (r.after call).stage ∧ (r.after call).sink = r.sink) ∨
      (call.fits r.stage = false ∧
        call.act.run r = .error (.malformed 0 (.outOfOrder call.action r.stage.name)) r ∧
        r.after call = r) := by
  obtain ⟨sink, stage⟩ := r
  cases call with
  | recordSummary result =>
    cases stage with
    | pending =>
      cases result with
      | ok s => exact .inl ⟨rfl, rfl, .summary s, rfl⟩
      | error f => exact .inl ⟨rfl, rfl, .noSummary f, rfl⟩
    | _ => exact .inr ⟨rfl, rfl, rfl⟩
  | recordAssessment result =>
    cases stage with
    | abstracted s =>
      cases result with
      | ok a => exact .inl ⟨rfl, rfl, .assessment s a, rfl⟩
      | error f => exact .inl ⟨rfl, rfl, .noAssessment s f, rfl⟩
    | _ => exact .inr ⟨rfl, rfl, rfl⟩
  | finish =>
    cases stage with
    | classified s a => exact .inl ⟨rfl, rfl, .verdict s a, rfl⟩
    | verdicted v => exact .inl ⟨rfl, rfl, .again v, rfl⟩
    | _ => exact .inr ⟨rfl, rfl, rfl⟩

theorem after_sink (r : Review) (call : Call) : (r.after call).sink = r.sink := by
  rcases act_cases r call with ⟨-, -, -, hsink⟩ | ⟨-, -, heq⟩
  · exact hsink
  · rw [heq]

/-- With a verdict no call changes anything. -/
theorem after_of_verdicted (h : r.stage = .verdicted v) : r.after call = r := by
  obtain ⟨sink, stage⟩ := r
  cases h
  cases call <;> rfl

theorem finish_of_verdicted (h : r.stage = .verdicted v) : Transition.finish.run r = .ok v r := by
  obtain ⟨sink, stage⟩ := r
  cases h
  rfl

/-! ## Runs -/

/-- The review after some calls. -/
def afterAll (r : Review) (calls : List Call) : Review := calls.foldl after r

/-- Those of some calls that are not refused. -/
def accepted : Review → List Call → List Call
  | _, [] => []
  | r, call :: calls =>
    if call.fits r.stage then call :: accepted (r.after call) calls
    else accepted (r.after call) calls

/-- What calls have led to a stage, if nothing out of order counts: a summary, an assessment, and
any number of demands for the verdict. A fault in place of the one or the other is the verdict. -/
def Explains (sink : Option Sink) (taken : List Call) : Stage → Prop
  | .pending => taken = []
  | .abstracted s => taken = [.recordSummary (.ok s)]
  | .classified s a => taken = [.recordSummary (.ok s), .recordAssessment (.ok a)]
  | .verdicted v =>
    (∃ s a n, taken =
        [.recordSummary (.ok s), .recordAssessment (.ok a)] ++ List.replicate (n + 1) .finish ∧
        v = verdictOf sink s a ∧ v.outcome = a.outcome) ∨
      (∃ f n, taken = .recordSummary (.error f) :: List.replicate n .finish ∧
        v = .ofFault sink f ∧ v.outcome = .unknown) ∨
      ∃ s f n, taken =
        [.recordSummary (.ok s), .recordAssessment (.error f)] ++ List.replicate n .finish ∧
        v = .ofFault sink f ∧ v.outcome = .unknown

/-- One call more explains the next stage. -/
theorem Explains.moves (h : Explains sink taken stage) (hmoves : Moves sink stage call stage') :
    Explains sink (taken ++ [call]) stage' := by
  cases hmoves with
  | summary s => exact congrArg (· ++ [.recordSummary (.ok s)]) h
  | assessment s a => exact congrArg (· ++ [.recordAssessment (.ok a)]) h
  | noSummary f =>
    exact .inr (.inl ⟨f, 0, congrArg (· ++ [.recordSummary (.error f)]) h, rfl, rfl⟩)
  | noAssessment s f =>
    exact .inr (.inr ⟨s, f, 0, congrArg (· ++ [.recordAssessment (.error f)]) h, rfl, rfl⟩)
  | verdict s a => exact .inl ⟨s, a, 0, congrArg (· ++ [.finish]) h, rfl, rfl⟩
  | again v =>
    -- the demand joins those that are there
    rcases h with ⟨s, a, n, rfl, hv⟩ | ⟨f, n, rfl, hv⟩ | ⟨s, f, n, rfl, hv⟩
    · refine .inl ⟨s, a, n + 1, ?_, hv⟩
      rw [List.append_assoc, ← List.replicate_succ']
    · refine .inr (.inl ⟨f, n + 1, ?_, hv⟩)
      rw [List.cons_append, ← List.replicate_succ']
    · refine .inr (.inr ⟨s, f, n + 1, ?_, hv⟩)
      rw [List.append_assoc, ← List.replicate_succ']

theorem explains_from (h : Explains r.sink taken r.stage) (calls : List Call) :
    Explains r.sink (taken ++ r.accepted calls) (r.afterAll calls).stage := by
  induction calls generalizing r taken with
  | nil =>
    rw [accepted, List.append_nil]
    exact h
  | cons call calls ih =>
    have hrun : r.afterAll (call :: calls) = (r.after call).afterAll calls := rfl
    rw [hrun, accepted]
    rcases act_cases r call with ⟨hfits, -, hmoves, hsink⟩ | ⟨hfits, -, heq⟩
    · have hmoved : Explains (r.after call).sink (taken ++ [call]) (r.after call).stage :=
        hsink.symm ▸ h.moves hmoves
      have hnext := ih hmoved
      rw [hsink, List.append_assoc] at hnext
      rw [if_pos hfits]
      exact hnext
    · rw [hfits, heq]
      exact ih h

/-- In a run of a new review the calls that were not refused explain the stage. -/
theorem explains_afterAll (sink : Option Sink) (calls : List Call) :
    Explains sink (({ sink := sink } : Review).accepted calls)
      (({ sink := sink } : Review).afterAll calls).stage := by
  have hnew : Explains ({ sink := sink } : Review).sink [] ({ sink := sink } : Review).stage := rfl
  exact explains_from hnew calls

theorem afterAll_sink (r : Review) (calls : List Call) : (r.afterAll calls).sink = r.sink := by
  induction calls generalizing r with
  | nil => rfl
  | cons call calls ih => exact (ih (r.after call)).trans (after_sink r call)

theorem afterAll_of_verdicted (h : r.stage = .verdicted v) (calls : List Call) :
    r.afterAll calls = r := by
  induction calls with
  | nil => rfl
  | cons call calls ih =>
    have hrun : r.afterAll (call :: calls) = (r.after call).afterAll calls := rfl
    rw [hrun, after_of_verdicted h]
    exact ih

/-! ## Classifiers -/

/-- The calls by which a classifier takes a path through its review. -/
def callsOf (c : Classifier) (p : Path) : List Call :=
  match c.summarize p with
  | .ok s => [.recordSummary (.ok s), .recordAssessment (c.assess s), .finish]
  | .error f => [.recordSummary (.error f), .finish]

/-- A review with a summary goes on with the assessment of it. -/
theorem review_of_summary {c : Classifier} {p : Path} {s : Summary} (hs : c.summarize p = .ok s) :
    (c.review p).run { sink := sink } =
      (do Transition.recordAssessment (c.assess s); Transition.finish : Action Review Verdict).run
        { sink := sink, stage := .abstracted s } := by
  unfold Classifier.review
  rw [hs]
  rfl

/-- The verdict on a path is that of the assessment of its summary. A fault in place of the one or
the other makes it unknown. -/
theorem classify_eq (c : Classifier) (p : Path) :
    c.classify p =
      match c.summarize p with
      | .ok s =>
        match c.assess s with
        | .ok a => verdictOf p.sink? s a
        | .error f => .ofFault p.sink? f
      | .error f => .ofFault p.sink? f := by
  unfold Classifier.classify
  cases hs : c.summarize p with
  | error f =>
    unfold Classifier.review
    rw [hs]
    rfl
  | ok s =>
    rw [review_of_summary hs]
    dsimp only
    cases c.assess s <;> rfl

/-- A classifier makes its calls in order: none is refused, and the last one hands out the verdict
on the path. -/
theorem review_eq_ok (c : Classifier) (p : Path) :
    let start : Review := { sink := p.sink? }
    (c.review p).run start = .ok (c.classify p) (start.afterAll (callsOf c p)) ∧
      start.accepted (callsOf c p) = callsOf c p ∧
      (start.afterAll (callsOf c p)).stage = .verdicted (c.classify p) := by
  intro start
  rw [classify_eq]
  unfold callsOf
  cases hs : c.summarize p with
  | error f =>
    unfold Classifier.review
    rw [hs]
    exact ⟨rfl, rfl, rfl⟩
  | ok s =>
    rw [review_of_summary hs]
    dsimp only
    cases c.assess s with
    | error f => exact ⟨rfl, rfl, rfl⟩
    | ok a => exact ⟨rfl, rfl, rfl⟩

/-! ## Every run -/

/-- In every run of a new review, a call that is in order moves it from stage to stage, and any
other one is refused with a fault of the path and leaves it as it is. The calls that were not
refused are a summary, an assessment and demands for the verdict in this order, cut short by a
fault, and they tell the stage. With a verdict the review stays as it is and hands it out again, and
the calls that a classifier makes are never refused. -/
theorem runs_in_order (sink : Option Sink) (calls : List Call) :
    let start : Review := { sink := sink }
    let r := start.afterAll calls
    (∀ call : Call,
      (call.fits r.stage = true ∧
          call.act.run r = .ok (call.handedOut (r.after call).stage) (r.after call) ∧
          Moves sink r.stage call (r.after call).stage) ∨
        (call.fits r.stage = false ∧
          call.act.run r = .error (.malformed 0 (.outOfOrder call.action r.stage.name)) r)) ∧
      Explains sink (start.accepted calls) r.stage ∧
      (∀ v, r.stage = .verdicted v →
        ∀ more, r.afterAll more = r ∧ Transition.finish.run (r.afterAll more) = .ok v r) ∧
      ∀ (c : Classifier) (p : Path),
        let start : Review := { sink := p.sink? }
        (c.review p).run start = .ok (c.classify p) (start.afterAll (callsOf c p)) ∧
          start.accepted (callsOf c p) = callsOf c p ∧
          (start.afterAll (callsOf c p)).stage = .verdicted (c.classify p) := by
  intro start r
  have hsink : r.sink = sink := afterAll_sink start calls
  refine ⟨fun call => ?_, explains_afterAll sink calls, fun v hv more => ?_, review_eq_ok⟩
  · rcases act_cases r call with ⟨hfits, hanswer, hmoves, -⟩ | ⟨hfits, hrefused, -⟩
    · exact .inl ⟨hfits, hanswer, hsink ▸ hmoves⟩
    · exact .inr ⟨hfits, hrefused⟩
  · have hstays := afterAll_of_verdicted hv more
    exact ⟨hstays, hstays.symm ▸ finish_of_verdicted hv⟩

end Review

end FlowSafety
