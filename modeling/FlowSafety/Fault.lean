import FlowSafety.Value.Basic

/-!
# Faults

What can go wrong, by cause. A fault of a path concerns a step and never stops the analysis of other
paths; a fault of the set-up is found before any path is looked at. The wording of every cause is in
`PathFault.message`, `SetupFault.message` and `Fault.message`.

Three causes stand for a complaint of something outside: `PathFault.invalidPattern` for one of the
reader of patterns, `Fault.unreadable` for one of the file system, and `Fault.notDecodable` for one
of the reader of JSON. What these complain about is not kept, so the end of the three messages is
worded here, in place of what they say.

An `Action` changes a state in place or is refused with a fault.
-/

namespace FlowSafety

/-- What can be wrong with a path at a step. -/
inductive PathFault where
  -- Found by validation.
  | unsupportedVersion (version : Nat)
  | parentNotEarlier (branch parent : Nat)
  | noSource
  | noSteps
  | unknownBranch (branch : Nat)
  | sourceNotFirst
  | sinkNotLast
  | referenceNotEarlier (target : Nat)
  | noConstants
  | noCandidates
  | guardOfUnknownBranch (branch : Nat)
  | guardOutsideBranch (branch : Nat)
  | invalidPattern (pattern : String)
  -- Found on the walk.
  | tooManySteps (count limit : Nat)
  | noValueBefore
  | noValueAtEnd
  | stringAsNumeric (name : String)
  | numericAsString (name : String)
  | numericOnText (name : String)
  | textExpected (name : String)
  | operandCount (name : String) (expected got : Nat)
  | oneOperandExpected (name : String) (got : Nat)
  | unresolvedCall (name : String)
  | noOperands (name : String)
  | tooFewOperands (name : String)
  | notOnIntervals (name : String)
  | stringOnInteger (name : String)
  | formatOnText (name : String)
  | comparisonOnText
  | patternOnInteger
  -- Found when a verdict is made.
  | noSink
  | textAtLoopBound
  | noLoopBound (depth : Nat)
  | outOfOrder (action state : String)
  /-- Reported by a caller in words of its own. -/
  | reported (message : String)
deriving DecidableEq, Repr

/-- The version of the persisted form of paths. -/
def pathVersion : Nat := 1

namespace PathFault

/-- Text between single quotes, as names are set off in messages. -/
def inQuotes (s : String) : String := "'" ++ s ++ "'"

/-- How a fault of a path is reported. For `invalidPattern` only the words before the colon are
those of the report: behind it the reader of patterns would say what is wrong, and here the pattern
is named instead. -/
def message : PathFault → String
  | .unsupportedVersion version =>
    s!"unsupported path format version {version} (expected {pathVersion})"
  | .parentNotEarlier branch parent =>
    s!"branch {branch} has parent {parent} which is not an earlier branch"
  | .noSource => "path does not start with a source"
  | .noSteps => "path has no steps"
  | .unknownBranch branch => s!"unknown branch id {branch}"
  | .sourceNotFirst => "source must be the first step"
  | .sinkNotLast => "sink tag must be the last step"
  | .referenceNotEarlier target => s!"step reference {target} does not point to an earlier step"
  | .noConstants => "enum ordinal of an enum with no constants"
  | .noCandidates => "enum value with no candidate values"
  | .guardOfUnknownBranch branch => s!"guard enters unknown branch {branch}"
  | .guardOutsideBranch branch =>
    s!"guard step must be tagged with the branch it enters ({branch})"
  | .invalidPattern pattern => s!"invalid guard pattern: /{pattern}/ is malformed"
  | .tooManySteps count limit =>
    s!"path has {count} steps, more than the configured limit of {limit}"
  | .noValueBefore => "no value before this step"
  | .noValueAtEnd => "path produced no value"
  | .stringAsNumeric name => s!"string transform {inQuotes name} used as a numeric operator"
  | .numericAsString name => s!"numeric transform {inQuotes name} used as a string operation"
  | .numericOnText name => s!"numeric operator {inQuotes name} applied to text"
  | .textExpected name => s!"{inQuotes name} expects text but the value is an integer"
  | .operandCount name expected got => s!"{inQuotes name} takes {expected} operands, got {got}"
  | .oneOperandExpected name got => s!"{inQuotes name} takes 1 operand, got {got}"
  | .unresolvedCall name => s!"unresolved call {inQuotes name}"
  | .noOperands name => s!"{inQuotes name} needs operands"
  | .tooFewOperands name => s!"{inQuotes name} takes at least 2 operands"
  | .notOnIntervals name => s!"{inQuotes name} is not an interval operator"
  | .stringOnInteger name => s!"string transform {inQuotes name} applied to an integer"
  | .formatOnText name => s!"{inQuotes name} formats a number but the value is text"
  | .comparisonOnText => "integer comparison guard on a text value"
  | .patternOnInteger => "pattern guard on an integer value"
  | .noSink => "path does not end in a sink tag"
  | .textAtLoopBound => "loop bound sink reached by a text value"
  | .noLoopBound depth => s!"loop at depth {depth} does not end in an integer loop bound"
  | .outOfOrder action state => s!"cannot {action} a path in state {inQuotes state}"
  | .reported message => message

end PathFault

/-- What can be wrong with a policy or a catalogue. -/
inductive SetupFault where
  | noCeiling
  | zeroCeiling
  | zeroStepLimit
  | emptyCatalogue
  | catalogueInstalled
  | emptyName
  | nameTaken (name : String)
  | wrongKind (name : String) (declared actual : ValueKind)
  | aliasOfCall (name target : String)
  | unsupportedRadix (name : String) (radix : Nat)
  /-- Reported by a caller in words of its own. -/
  | reported (message : String)
deriving DecidableEq, Repr

namespace SetupFault

open PathFault (inQuotes)

def message : SetupFault → String
  | .noCeiling => "loop ceiling is not set"
  | .zeroCeiling => "loop ceiling must be positive"
  | .zeroStepLimit => "max_path_steps must be positive"
  | .emptyCatalogue => "transform registry is empty"
  | .catalogueInstalled => "transform registry is already installed"
  | .emptyName => "transform name is empty"
  | .nameTaken name => s!"transform {inQuotes name} is already registered"
  | .wrongKind name declared actual =>
    s!"transform {inQuotes name} is declared {declared.name} but its effect is {actual.name}"
  | .aliasOfCall name target =>
    let what := s!"transform {inQuotes name} aliases call {inQuotes target}"
    what ++ "; register the target's effect instead"
  | .unsupportedRadix name radix =>
    s!"transform {inQuotes name} formats in unsupported radix {radix}"
  | .reported message => message

end SetupFault

/-- Anything that can go wrong. -/
inductive Fault where
  /-- A path is malformed at a step. -/
  | malformed (step : Nat) (cause : PathFault)
  /-- A name is not in the catalogue. -/
  | unrecognized (what : String)
  /-- The set-up is not valid. -/
  | setup (cause : SetupFault)
  /-- A file cannot be read. -/
  | unreadable
  /-- A text is not the JSON of the expected shape. -/
  | notDecodable
deriving DecidableEq, Repr

namespace Fault

/-- How a fault is reported. For `unreadable` and `notDecodable` only the words before the colon are
those of the report. Behind it the file system or the reader of JSON would say what is wrong, and
here a fixed text stands instead; the name of the file is left out as well. -/
def message : Fault → String
  | .malformed step cause => s!"Malformed path at step {step}: {cause.message}"
  | .unrecognized what => "Unrecognized operator: " ++ what
  | .setup cause => "Configuration error: " ++ cause.message
  | .unreadable => "IO error: the file cannot be read"
  | .notDecodable => "Serialization error: the text does not have the expected shape"

/-- Whether the fault concerns one path only. -/
def isOfPath : Fault → Bool
  | .malformed .. => true
  | .unrecognized _ => true
  | _ => false

/-- The step that the fault names. -/
def step? : Fault → Option Nat
  | .malformed step _ => some step
  | _ => none

end Fault

/-! ## Actions -/

/-- Something that is done to a state in place: an answer, or the fault with which it is refused,
and the state that is left behind in either case. -/
abbrev Action (σ : Type) := EStateM Fault σ

/-- The answer of an action, with the state that it leaves behind if it is not refused. -/
def Action.answer {σ α : Type} (act : Action σ α) (s : σ) : Except Fault (α × σ) :=
  match act.run s with
  | .ok a s => .ok (a, s)
  | .error f _ => .error f

/-- The state that an action leaves behind, refused or not. -/
def Action.left {σ α : Type} (act : Action σ α) (s : σ) : σ :=
  match act.run s with
  | .ok _ s => s
  | .error _ s => s

end FlowSafety
