import FlowSafety.Policy
import FlowSafety.Verdict.LoopBound
import FlowSafety.Verdict.Review
import FlowSafety.Verdict.StringSink

/-!
# Classifiers

A classifier decides about paths under a policy and with a catalogue. A fault of a path never gets
out: the path gets an unknown verdict that tells why, and other paths are not affected.
-/

namespace FlowSafety

/-- A valid policy and a catalogue. -/
structure Classifier where
  policy : Policy
  ceiling : Nat
  catalogue : Catalogue

namespace Classifier

/-- The classifier for a policy and a catalogue, if the one is valid and the other not empty. -/
def ofPolicy (policy : Policy) (catalogue : Catalogue) : Except Fault Classifier := do
  policy.validate
  if catalogue.isEmpty then throw (.setup .emptyCatalogue)
  return { policy := policy, ceiling := ← policy.ceiling, catalogue := catalogue }

/-- What is known at the end of a path. -/
def summarize (c : Classifier) (p : Path) : Except Fault Summary :=
  p.summarize c.catalogue c.policy.maxSteps

/-! ## Single paths -/

/-- The place of the last step that was evaluated. -/
def lastStep (s : Summary) : Nat := s.trace.length - 1

/-- The decision about a summary. -/
def assess (c : Classifier) (s : Summary) : Except Fault Assessment :=
  match s.sink with
  | none => .error (.malformed (lastStep s) .noSink)
  | some sink =>
    if sink.takesText then .ok (StringSink.classify sink s c.policy.disclosing)
    else
      match LoopBound.checkSummary? s c.ceiling with
      | some a => .ok a
      | none => .error (.malformed (lastStep s) .textAtLoopBound)

/-- Take a path through its review. -/
def review (c : Classifier) (p : Path) : Action Review Verdict := do
  Review.Transition.recordSummary (c.summarize p)
  if let some s := (← get).summary? then
    Review.Transition.recordAssessment (c.assess s)
  Review.Transition.finish

/-- The verdict on a path. -/
def classify (c : Classifier) (p : Path) : Verdict :=
  match (c.review p).run { sink := p.sink? } with
  | .ok v _ => v
  | .error f _ => .ofFault p.sink? f

/-- The verdict on the path that a text holds. -/
def classifyText (c : Classifier) (text : String) : Verdict :=
  match Path.ofText text with
  | .ok p => c.classify p
  | .error f => .ofFault none f

/-- The verdicts on several paths, in the same order. -/
def classifyBatch (c : Classifier) (ps : List Path) : List Verdict := ps.map c.classify

/-! ## Loop nests -/

/-- What is known of the outer loops of a nest. -/
structure Nest where
  bounds : List Interval := []
  rationale : List Reason := []
  notes : List String := []

/-- What bounds the loop that a path ends in. -/
def boundExplanation (s : Summary) : String :=
  match s.boundingStep.bind s.operationAt? with
  | some operation => s!"bounded by {operation}"
  | none => "no step narrows the bound"

/-- The note on a loop whose bound depends on a name that is not known. -/
def pendingNote (depth : Nat) (s : Summary) : List String :=
  if s.pending.isSome && s.boundingStep.isNone then
    [s!"loop at depth {depth} depends on an unrecognized operator"]
  else []

/-- Add a loop to a nest. -/
def addLoop (n : Nest) (depth : Nat) (s : Summary) (iv : Interval) : Nest :=
  { bounds := n.bounds ++ [iv]
    rationale :=
      n.rationale ++
        [{ step := s.boundingStep, operation := s!"loop bound at depth {depth}",
           guarantee := iv.text, explanation := boundExplanation s }]
    notes := n.notes ++ pendingNote depth s ++ s.notes }

/-- The verdict on a complete nest. -/
def nestVerdict (c : Classifier) (n : Nest) : Verdict :=
  let a := LoopBound.checkNest n.bounds c.ceiling
  { outcome := a.outcome
    sink := some .loopBound
    rationale := n.rationale ++ a.rationale
    notes := n.notes ++ a.notes }

/-- The verdict on a nest of which the outer loops are known. -/
def classifyInner (c : Classifier) (depth : Nat) (n : Nest) : List Path → Verdict
  | [] => c.nestVerdict n
  | p :: ps =>
    match c.summarize p with
    | .error f =>
      { Verdict.ofFault (some .loopBound) f with
        notes := [s!"loop at depth {depth} could not be analyzed"] }
    | .ok s =>
      match s.sink, s.value with
      | some .loopBound, .integer iv => c.classifyInner (depth + 1) (addLoop n depth s iv) ps
      | _, _ =>
        .ofFault (some .loopBound) (.malformed (lastStep s) (.noLoopBound depth))

/-- The verdict on a nest of loops, given a path for the bound of each from the outermost on. -/
def classifyNest (c : Classifier) (ps : List Path) : Verdict := c.classifyInner 0 {} ps

end Classifier

end FlowSafety
