import FlowSafety.Verdict.Basic

/-!
# Reviews

A review takes one path from its summary over an assessment to a verdict, in this order. A fault in
place of a summary or an assessment ends the review with an unknown verdict. Anything out of order
is refused and leaves the review as it is.
-/

namespace FlowSafety

/-- How far a review has come. -/
inductive Stage where
  | pending
  | abstracted (summary : Summary)
  | classified (summary : Summary) (assessment : Assessment)
  | verdicted (verdict : Verdict)
deriving DecidableEq

namespace Stage

def name : Stage → String
  | .pending => "pending"
  | .abstracted _ => "abstracted"
  | .classified .. => "classified"
  | .verdicted _ => "verdicted"

end Stage

/-- The review of a path that ends in a sink. -/
structure Review where
  sink : Option Sink
  stage : Stage := .pending
deriving DecidableEq

namespace Review

/-- The fault of an action out of order. -/
def outOfOrder (r : Review) (action : String) : Fault :=
  .malformed 0 (.outOfOrder action r.stage.name)

/-- The same review with its final verdict on a path that could not be analysed. -/
def fail (r : Review) (f : Fault) : Review := { r with stage := .verdicted (.ofFault r.sink f) }

/-- The summary that waits for an assessment. -/
def summary? (r : Review) : Option Summary :=
  match r.stage with
  | .abstracted s => some s
  | _ => none

/-- The entry of a rationale for a step of the path. -/
def reasonOf (t : Trace) : Reason :=
  { step := some t.step, operation := t.operation, guarantee := t.value.render,
    explanation := t.explanation }

/-- The verdict on a path: its steps in order, then what the assessment says. -/
def verdictOf (sink : Option Sink) (s : Summary) (a : Assessment) : Verdict :=
  { outcome := a.outcome
    sink := sink
    rationale := s.trace.map reasonOf ++ a.rationale
    notes := s.notes ++ a.notes }

/-! ## Transitions -/

namespace Transition

/-- Take the stage out. The review is pending until another one is put in. -/
def takeStage : Action Review Stage := modifyGet fun r => (r.stage, { r with stage := .pending })

/-- Put a stage in. -/
def putStage (stage : Stage) : Action Review Unit := modify fun r => { r with stage := stage }

/-- Refuse an action that is out of order. -/
def refuse {α : Type} (action : String) : Action Review α := do
  throw ((← get).outOfOrder action)

/-- Take the summary of the path. -/
def recordSummary (result : Except Fault Summary) : Action Review Unit := do
  match (← get).stage with
  | .pending =>
    match result with
    | .ok s => putStage (.abstracted s)
    | .error f => modify (·.fail f)
  | _ => refuse "abstract"

/-- Take the assessment of the path. -/
def recordAssessment (result : Except Fault Assessment) : Action Review Unit := do
  match ← takeStage with
  | .abstracted s =>
    match result with
    | .ok a => putStage (.classified s a)
    | .error f => modify (·.fail f)
  | other =>
    putStage other
    refuse "classify"

/-- Hand out the verdict, which stays with the review. -/
def finish : Action Review Verdict := do
  match ← takeStage with
  | .classified s a =>
    let v := verdictOf (← get).sink s a
    putStage (.verdicted v)
    return v
  | .verdicted v =>
    putStage (.verdicted v)
    return v
  | other =>
    putStage other
    refuse "finish"

end Transition

/-- The review with the summary of the path. -/
def recordSummary (r : Review) (result : Except Fault Summary) : Except Fault Review :=
  ((Transition.recordSummary result).answer r).map Prod.snd

/-- The review with the assessment of the path. -/
def recordAssessment (r : Review) (result : Except Fault Assessment) : Except Fault Review :=
  ((Transition.recordAssessment result).answer r).map Prod.snd

/-- The verdict, and the review that stays with it. -/
def finish (r : Review) : Except Fault (Verdict × Review) := Transition.finish.answer r

end Review

end FlowSafety
