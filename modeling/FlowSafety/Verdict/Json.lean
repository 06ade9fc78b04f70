import FlowSafety.Path.Json
import FlowSafety.Verdict.Basic

/-!
# The persisted form of verdicts
-/

namespace FlowSafety

def Outcome.ofJson? (j : Json) : Option Outcome := j.unitChoice? Outcome.all Outcome.name

namespace Reason

def toJson (r : Reason) : Json :=
  .object
    [("step", .ofOption .ofNat r.step), ("operation", .ofText r.operation),
      ("guarantee", .ofText r.guarantee), ("explanation", .ofText r.explanation)]

def ofJson? (j : Json) : Option Reason :=
  (j.record? ["step", "operation", "guarantee", "explanation"]).bind fun fields =>
    match fields with
    | [step, operation, guarantee, explanation] => do
      return {
        step := ← step.optional Json.size?
        operation := ← operation.required Json.text?
        guarantee := ← guarantee.required Json.text?
        explanation := ← explanation.required Json.text? }
    | _ => none

end Reason

namespace Verdict

def toJson (v : Verdict) : Json :=
  .object
    [("outcome", .ofText v.outcome.name),
      ("sink", .ofOption (fun s : Sink => .ofText s.name) v.sink),
      ("rationale", .ofList Reason.toJson v.rationale), ("notes", .ofList .ofText v.notes)]

def ofJson? (j : Json) : Option Verdict :=
  (j.record? ["outcome", "sink", "rationale", "notes"]).bind fun fields =>
    match fields with
    | [outcome, sink, rationale, notes] => do
      return {
        outcome := ← outcome.required Outcome.ofJson?
        sink := ← sink.optional Sink.ofJson?
        rationale := ← rationale.required (Json.list? Reason.ofJson?)
        notes := ← notes.withDefault [] (Json.list? Json.text?) }
    | _ => none

end Verdict

end FlowSafety
