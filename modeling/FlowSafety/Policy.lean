import FlowSafety.Path.Json

/-!
# Policies

What a user of the analysis has decided: how often a loop may run, how long a path may be, and where
sensitive data counts as disclosed. The ceiling has no default, since it is a decision and not a
technical parameter.
-/

namespace FlowSafety

/-- The settings of a classifier. -/
structure Policy where
  /-- How often a loop may run. -/
  loopCeiling : Option Nat := none
  /-- How many steps a path may have. -/
  maxSteps : Option Nat := none
  /-- The sinks where sensitive data counts as disclosed. -/
  disclosureSinks : Option (List Sink) := none
deriving DecidableEq, Repr

namespace Policy

def withCeiling (ceiling : Nat) : Policy := { loopCeiling := some ceiling }

/-- The first fault of a policy, if it has any. -/
def validate (p : Policy) : Except Fault Unit :=
  match p.loopCeiling, p.maxSteps with
  | none, _ => .error (.setup .noCeiling)
  | some 0, _ => .error (.setup .zeroCeiling)
  | _, some 0 => .error (.setup .zeroStepLimit)
  | _, _ => .ok ()

/-- The ceiling, if it is set and positive. -/
def ceiling (p : Policy) : Except Fault Nat :=
  match p.loopCeiling with
  | some (n + 1) => .ok (n + 1)
  | _ => .error (.setup .noCeiling)

/-- The sinks where sensitive data counts as disclosed. -/
def disclosing (p : Policy) : List Sink := p.disclosureSinks.getD Sink.disclosing

/-! ## The persisted form -/

def toJson (p : Policy) : Json :=
  .object
    [("loop_ceiling", .ofOption .ofNat p.loopCeiling),
      ("max_path_steps", .ofOption .ofNat p.maxSteps),
      ("disclosure_sinks",
        .ofOption (.ofList fun s : Sink => .ofText s.name) p.disclosureSinks)]

def ofJson? (j : Json) : Option Policy :=
  (j.record? ["loop_ceiling", "max_path_steps", "disclosure_sinks"]).bind fun fields =>
    match fields with
    | [ceiling, steps, sinks] => do
      return {
        loopCeiling := ← ceiling.withDefault none (Json.nullable? Json.size?)
        maxSteps := ← steps.withDefault none (Json.nullable? Json.size?)
        disclosureSinks :=
          ← sinks.withDefault none (Json.nullable? (Json.list? Sink.ofJson?)) }
    | _ => none

/-- The policy that a text holds, if it is valid. -/
def ofText (text : String) : Except Fault Policy :=
  match (Json.parse? text).bind ofJson? with
  | none => .error .notDecodable
  | some p => p.validate.map fun _ => p

/-- The policy in a file, given its contents if the file can be read. -/
def ofFile (contents : Option String) : Except Fault Policy :=
  match contents with
  | none => .error .unreadable
  | some text => ofText text

end Policy

end FlowSafety
