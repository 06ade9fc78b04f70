import FlowSafety.Verdict.Basic

/-!
# String sinks

The decision on a value that reaches a string sink, on two axes. On the injection axis the charset
has to prove the forbidden characters absent. On the disclosure axis a value of a sensitive source
has to be redacted, or at least reach the sink in a constrained form.

An integer is judged by its decimal numeral.
-/

namespace FlowSafety.StringSink

/-! ## Injection -/

/-- The guarantee of the text that reaches the sink, with a note if it is a numeral. -/
def renderedGuarantee : Value → TextGuarantee × List String
  | .text g => (g, [])
  | .integer iv => (.ofInteger iv 10, [s!"integer {iv.text} judged by its decimal rendering"])

/-- The outcome of the injection axis, and why. -/
def injectionOutcome (sink : Sink) (pending : Option String) (c : Charset) : Outcome × String :=
  match sink.forbidden?, pending with
  | none, _ => (.safe, s!"{sink.name} has no injection predicate")
  | some _, some name =>
    let what := s!"unrecognized transform {PathFault.inQuotes name}"
    (.unknown, s!"{what} was never superseded by a known guarantee")
  | some forbidden, none =>
    match Sink.check forbidden c with
    | .ok why => (.safe, why)
    | .error why => (.unsafeFlow, why)

/-- The decision on the injection axis. -/
def injection (sink : Sink) (s : Summary) : Assessment :=
  let (g, notes) := renderedGuarantee s.value
  let operation := (s.guaranteeStep.bind s.operationAt?).getD "path"
  let (outcome, explanation) := injectionOutcome sink s.pending g.charset
  { outcome := outcome
    rationale :=
      [{ step := s.guaranteeStep
         operation := s!"injection check at {sink.name} (via {operation})"
         guarantee := g.text
         explanation := explanation }]
    notes := notes }

/-! ## Disclosure -/

/-- The value is a text about whose characters nothing is known. An integer never is. -/
def isUnconstrained : Value → Bool
  | .text g => g.isUnconstrained
  | .integer _ => false

/-- The decision on the disclosure axis, if the source is sensitive and the sink discloses. -/
def disclosure? (sink : Sink) (s : Summary) (disclosing : List Sink) : Option Assessment :=
  let entry (outcome : Outcome) (step : Option Nat) (guarantee explanation : String) :
      Assessment :=
    { outcome := outcome
      rationale :=
        [{ step := step, operation := s!"disclosure check at {sink.name}", guarantee := guarantee,
           explanation := explanation }] }
  if !s.sourceIsSensitive || !disclosing.contains sink then none
  else if !s.isSensitive then
    some (entry .safe s.redactedAt "redacted" s!"sensitive value from {s.source} was redacted")
  else if !isUnconstrained s.value then
    some
      (entry .safe s.guaranteeStep "constrained"
        s!"sensitive value from {s.source} only reaches {sink.name} in a constrained form")
  else
    match s.pending with
    | some name =>
      let through := s!"passes through unrecognized {PathFault.inQuotes name} before {sink.name}"
      some (entry .unknown none "sensitive" s!"sensitive value from {s.source} {through}")
    | none =>
      let reaches := s!"reaches {sink.name} unconstrained and without redaction"
      some (entry .unsafeFlow none "sensitive" s!"sensitive value from {s.source} {reaches}")

/-- The decision on both axes. -/
def classify (sink : Sink) (s : Summary) (disclosing : List Sink) : Assessment :=
  match disclosure? sink s disclosing with
  | some disclosure => (injection sink s).merge disclosure
  | none => injection sink s

end FlowSafety.StringSink
