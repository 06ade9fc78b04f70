import FlowSafety.Walk.Basic

/-!
# Verdicts

The decision about a path, with the reasons for it. An assessment is the decision on one axis;
assessments merge into one whose outcome is the worst of theirs.
-/

namespace FlowSafety

/-! ## Outcomes -/

/-- A decision, from the best to the worst. -/
inductive Outcome where
  | safe
  | unknown
  | unsafeFlow
deriving DecidableEq, Repr

namespace Outcome

def all : List Outcome := [.safe, .unknown, .unsafeFlow]

/-- The name in the persisted form. -/
def name : Outcome → String
  | .safe => "safe"
  | .unknown => "unknown"
  | .unsafeFlow => "unsafe"

/-- The name in a report. -/
def label : Outcome → String
  | .safe => "SAFE"
  | .unknown => "UNKNOWN"
  | .unsafeFlow => "UNSAFE"

/-- The worse of two outcomes. -/
def worst : Outcome → Outcome → Outcome
  | .unsafeFlow, _ => .unsafeFlow
  | _, .unsafeFlow => .unsafeFlow
  | .unknown, _ => .unknown
  | _, .unknown => .unknown
  | .safe, .safe => .safe

end Outcome

/-! ## Assessments -/

/-- An entry of a rationale. -/
structure Reason where
  /-- The step that the entry is about. -/
  step : Option Nat
  operation : String
  /-- What is known after the operation. -/
  guarantee : String
  explanation : String
deriving DecidableEq, Repr

/-- A decision on one axis. -/
structure Assessment where
  outcome : Outcome
  rationale : List Reason := []
  notes : List String := []
deriving DecidableEq, Repr

namespace Assessment

/-- Both decisions together. -/
def merge (a b : Assessment) : Assessment :=
  { outcome := a.outcome.worst b.outcome
    rationale := a.rationale ++ b.rationale
    notes := a.notes ++ b.notes }

end Assessment

/-! ## Verdicts -/

/-- The decision about a path. -/
structure Verdict where
  outcome : Outcome
  sink : Option Sink
  rationale : List Reason
  notes : List String
deriving DecidableEq, Repr

namespace Verdict

/-- The verdict on a path that could not be analysed. -/
def ofFault (sink : Option Sink) (f : Fault) : Verdict :=
  { outcome := .unknown
    sink := sink
    rationale :=
      [{ step := f.step?, operation := "analysis", guarantee := "none", explanation := f.message }]
    notes := [] }

def isSafe (v : Verdict) : Bool := v.outcome = .safe

/-- One line of a report. -/
def reasonLine (r : Reason) : String :=
  let place := match r.step with
    | some step => s!"  #{step} {r.operation}"
    | none => s!"  {r.operation}"
  s!"{place} => {r.guarantee}: {r.explanation}\n"

/-- The first line of a report. -/
def headLine (v : Verdict) : String :=
  match v.sink with
  | some s => s!"WHY {v.outcome.label} at {s.name}\n"
  | none => s!"WHY {v.outcome.label}\n"

/-- The report that explains a verdict. -/
def report (v : Verdict) : String :=
  v.headLine ++ String.join (v.rationale.map reasonLine)
    ++ String.join (v.notes.map fun note => s!"  note: {note}\n")

end Verdict

end FlowSafety
