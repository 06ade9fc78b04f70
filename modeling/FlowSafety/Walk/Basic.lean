import FlowSafety.Path.Validation
import FlowSafety.Walk.Refinement
import FlowSafety.Walk.Transform

/-!
# The walk along a path

One pass from the source to the sink. Every step is evaluated once, and its result is kept for later
steps that refer to it.

Entering a branch adds a level with a refined copy of the value. Later operations apply to all
levels, so the value outside of the branch keeps up; a step outside of a branch drops its level, and
the value beneath takes over. Levels are kept innermost first, and the last one is outside of all
branches.

A name that the catalogue does not have makes the value unknown and is pending from then on. A later
sanitizer, a passed guard or a finite upper bound settles it, on the levels where it does.
-/

namespace FlowSafety

/-! ## Levels -/

/-- What is known at one level of branches. -/
structure Level where
  branch : Option Nat
  value : Value
  /-- The step that last lowered the upper bound. -/
  boundingStep : Option Nat := none
  /-- The step that established the guarantee of the text. -/
  guaranteeStep : Option Nat := none
  /-- The unrecognized name whose effect has not been superseded. -/
  pending : Option String := none
deriving DecidableEq

namespace Level

/-- Which step bounds the value, after a step replaced it. -/
def boundingStepAfter (l : Level) (index : Nat) (v : Value) : Option Nat :=
  match l.value.high?, v.high? with
  | _, some .posInf => none
  | some old, some new => if new < old then some index else l.boundingStep
  | none, some _ => some index
  | _, none => l.boundingStep

/-- Replace the value. -/
def update (l : Level) (index : Nat) (v : Value) : Level :=
  { l with boundingStep := l.boundingStepAfter index v, value := v }

end Level

/-- What is known after a step. -/
structure Trace where
  step : Nat
  operation : String
  value : Value
  explanation : String
deriving DecidableEq

/-- What a walk knows so far. -/
structure Walk where
  /-- The levels, innermost first. -/
  levels : List Level := []
  /-- The results of the steps. -/
  results : List Value := []
  trace : List Trace := []
  notes : List String := []
  source : String := ""
  sourceIsSensitive : Bool := false
  /-- The source is sensitive and no step has redacted the value. A step that joins an earlier value
  to a redacted one does not set this again. -/
  isSensitive : Bool := false
  redactedAt : Option Nat := none
  sink : Option Sink := none
deriving DecidableEq

/-- What is known at the end of a path. -/
structure Summary where
  value : Value
  sink : Option Sink
  trace : List Trace
  notes : List String
  /-- The unrecognized name whose effect was never superseded. -/
  pending : Option String
  source : String
  sourceIsSensitive : Bool
  isSensitive : Bool
  redactedAt : Option Nat
  boundingStep : Option Nat
  guaranteeStep : Option Nat
deriving DecidableEq

namespace Summary

/-- The operation of a step. -/
def operationAt? (s : Summary) (step : Nat) : Option String :=
  (s.trace.find? fun t => t.step = step).map (·.operation)

end Summary

namespace Walk

/-! ## Levels of a walk -/

/-- The innermost level. -/
def top (w : Walk) (index : Nat) : Except Fault Level :=
  match w.levels with
  | l :: _ => .ok l
  | [] => .error (.malformed index .noValueBefore)

/-- Drop the levels of branches that a step is not in. The outermost level stays. -/
def leave (p : Path) (branch : Option Nat) : List Level → List Level
  | inner :: outer :: levels =>
    if p.encloses inner.branch branch then inner :: outer :: levels
    else leave p branch (outer :: levels)
  | levels => levels

/-- Replace every level, the outermost first. -/
def mapLevels (f : Level → Except Fault Level) : List Level → Except Fault (List Level)
  | [] => .ok []
  | l :: ls => do
    let ls ← mapLevels f ls
    return (← f l) :: ls

/-- The result of an earlier step. -/
def resultOf (w : Walk) (index target : Nat) : Except Fault Value :=
  match w.results[target]? with
  | some v => .ok v
  | none => .error (.malformed index (.referenceNotEarlier target))

/-! ## Unrecognized names -/

/-- From this step on the effect of a name is pending on all levels. -/
def markUnknown (w : Walk) (index : Nat) (name : String) : Walk :=
  let what := s!"{PathFault.inQuotes name} at step {index}"
  { w with
    notes := w.notes ++ [(Fault.unrecognized what).message]
    levels := w.levels.map fun l => { l with pending := some name } }

/-- The innermost name that is pending on some levels. -/
def pendingOn (accepts : Level → Bool) (levels : List Level) : Option String :=
  levels.findSome? fun l => if accepts l then l.pending else none

/-- Settle what is pending on the levels that a test accepts. -/
def settle (w : Walk) (index : Nat) (how : String) (accepts : Level → Bool) : Walk :=
  let levels := w.levels.map fun l => if accepts l then { l with pending := none } else l
  match pendingOn accepts w.levels with
  | some name =>
    let what := s!"effect of unrecognized {PathFault.inQuotes name}"
    { w with
      levels := levels
      notes := w.notes ++ [s!"{what} superseded at step {index} ({how})"] }
  | none => { w with levels := levels }

/-! ## Guards -/

/-- The text became another one about which something is known. -/
def narrowsText (before after : Value) : Bool :=
  before.guarantee? ≠ after.guarantee? &&
    match after.guarantee? with
    | some g => !g.isUnconstrained
    | none => false

/-- The level of a branch, entered from another level. -/
def enteredLevel (l : Level) (index id : Nat) (v : Value) : Level :=
  let l := if narrowsText l.value v then { l with guaranteeStep := some index } else l
  { l.update index v with branch := some id }

def enterBranch (p : Path) (index id : Nat) (w : Walk) : Except Fault (Walk × String) :=
  match p.branches[id]? with
  | none => .error (.malformed index (.unknownBranch id))
  | some branch => do
    let l ← w.top index
    let (v, explanation) ← (branch.refine l.value).mapError (.malformed index)
    let w' := { w with levels := enteredLevel l index id v :: w.levels }
    let isEntered (l : Level) : Bool := l.branch = some id
    if narrowsText l.value v && branch.outcome = .passed then
      return (w'.settle index "validation guard" isEntered, explanation)
    else if v.hasFiniteHigh then
      return (w'.settle index "finite upper bound" isEntered, explanation)
    else return (w', explanation)

/-! ## Numeric operations -/

/-- What a numeric operation does. -/
inductive NumericTarget where
  | builtin (operator : Operator)
  | custom (f : List Interval → Interval)
  | unknown (name : String)

/-- Look an operator up, if it is a call. -/
def numericTarget (c : Catalogue) (index : Nat) : Operator → Except Fault NumericTarget
  | .call name =>
    match c.get? name with
    | none => .ok (.unknown name)
    | some (.numeric (.builtin o)) => .ok (.builtin o)
    | some (.numeric (.custom f)) => .ok (.custom f)
    | some (.text _) => .error (.malformed index (.stringAsNumeric name))
  | o => .ok (.builtin o)

/-- The value of an operand at a level. -/
def operandValue (w : Walk) (index : Nat) (current : Value) : Operand → Except Fault Value
  | .current => .ok current
  | .const v => .ok (.integer (.constant v))
  | .range iv => .ok (.integer iv)
  | .step target => w.resultOf index target

/-- The name under which a custom operator is reported. -/
def customName : String := "custom operator"

/-- The result of a target on the values of its operands. -/
def NumericTarget.evaluate (target : NumericTarget) (inputs : List Value) (current : Value) :
    Except PathFault Interval :=
  match target with
  | .builtin o => o.evaluate inputs current
  | .custom f => (Operator.intervals customName inputs).map f
  | .unknown _ => .ok .top

/-- What to say about a numeric operation. -/
def numericExplanation (index : Nat) (l : Level) : String :=
  match decide (l.boundingStep = some index), l.value.high? with
  | true, some high => s!"upper bound narrowed to {high.text}"
  | _, some .posInf => "upper bound is unbounded"
  | _, _ => "upper bound unchanged"

/-- The value of an operation of unknown effect on all levels. -/
def forgetNumeric (w : Walk) (index : Nat) (name : String) : Walk :=
  let levels := w.levels.map fun l => l.update index (.integer .top)
  { w with levels := levels }.markUnknown index name

/-- Apply a known operator on one level. -/
def numericLevel (w : Walk) (index : Nat) (target : NumericTarget) (operands : List Operand)
    (l : Level) : Except Fault Level := do
  let inputs ← operands.mapM (w.operandValue index l.value)
  let iv ← (target.evaluate inputs l.value).mapError (.malformed index)
  return l.update index (.integer iv)

def applyNumeric (c : Catalogue) (index : Nat) (o : Operator) (operands : List Operand)
    (w : Walk) : Except Fault (Walk × String) := do
  match ← numericTarget c index o with
  | .unknown name =>
    return (w.forgetNumeric index name,
      s!"{PathFault.inQuotes name} is not a known operator, value is unconstrained")
  | target =>
    let operands := if operands.isEmpty then [.current] else operands
    let levels ← mapLevels (w.numericLevel index target operands) w.levels
    let w := { w with levels := levels }.settle index "finite upper bound" fun l =>
      l.value.hasFiniteHigh
    return (w, numericExplanation index (← w.top index))

/-! ## String transforms -/

/-- The value of an argument. -/
def pieceOf (w : Walk) (index : Nat) : Argument → Except Fault Piece
  | .current => .ok .current
  | .literal s => .ok (.literal s)
  | .int v => .ok (.int v)
  | .step target => (w.resultOf index target).map .value

/-- The value of a transform of unknown effect on all levels. -/
def forgetText (w : Walk) (index : Nat) (name : String) : Walk :=
  let levels := w.levels.map fun l =>
    { l.update index (.text .unconstrained) with guaranteeStep := none }
  { w with levels := levels }.markUnknown index name

/-- Apply a known transform on one level. -/
def textLevel (index : Nat) (name : String) (effect : TextEffect) (pieces : List Piece)
    (l : Level) : Except Fault Level := do
  let g ← (effect.evaluate name pieces l.value).mapError (.malformed index)
  let l := l.update index (.text g)
  return if effect.isSanitizing then { l with guaranteeStep := some index } else l

/-- A redacting transform ends the sensitivity of the walk, whatever is joined to it later. -/
def redact (w : Walk) (index : Nat) (effect : TextEffect) : Walk :=
  if effect.isRedacting && w.isSensitive then
    { w with isSensitive := false, redactedAt := some index }
  else w

def applyText (c : Catalogue) (index : Nat) (name : String) (arguments : List Argument)
    (w : Walk) : Except Fault (Walk × String) :=
  match c.get? name with
  | none =>
    .ok (w.forgetText index name,
      s!"{PathFault.inQuotes name} is not a known transform, value is unconstrained")
  | some (.numeric _) => .error (.malformed index (.numericAsString name))
  | some (.text effect) => do
    let pieces ← arguments.mapM (w.pieceOf index)
    let levels ← mapLevels (textLevel index name effect pieces) w.levels
    let w := { w with levels := levels }
    let w := if effect.isSanitizing then w.settle index name fun _ => true else w
    return (w.redact index effect, effect.explanation name)

/-! ## Steps -/

/-- What is known about the value of a source. -/
def sourceValue : SourceKind → Value
  | .text => .text .unconstrained
  | .integer type => .integer type.range

/-- Start over at a source. -/
def enterSource (s : Source) (w : Walk) : Walk × String :=
  ({ w with
      levels := [{ branch := none, value := sourceValue s.kind }]
      source := s.name
      sourceIsSensitive := s.isSensitive
      isSensitive := s.isSensitive },
    match s.kind with
    | .integer _ => "tainted integer spans its type's full range"
    | .text => "tainted text, nothing is known")

/-- Apply the operation of a step, and say what it did. -/
def apply (p : Path) (c : Catalogue) (index : Nat) (op : Operation) (w : Walk) :
    Except Fault (Walk × String) :=
  match op with
  | .source s => .ok (w.enterSource s)
  | .guard id => w.enterBranch p index id
  | .numeric o operands => w.applyNumeric c index o operands
  | .string name arguments => w.applyText c index name arguments
  | .sink s => .ok ({ w with sink := some s }, s!"value reaches {s.name}")

/-- Keep the value of the innermost level as the result of a step. -/
def record (index : Nat) (op : Operation) (explanation : String) (w : Walk) :
    Except Fault Walk := do
  let v := (← w.top index).value
  let entry := { step := index, operation := op.text, value := v, explanation := explanation }
  return { w with trace := w.trace ++ [entry], results := w.results ++ [v] }

/-- One step: leave branches, apply the operation, keep the result. -/
def step (p : Path) (c : Catalogue) (index : Nat) (s : Step) (w : Walk) : Except Fault Walk := do
  let w := { w with levels := leave p s.branch w.levels }
  let (w, explanation) ← w.apply p c index s.op
  w.record index s.op explanation

/-- All steps from a place on. -/
def steps (p : Path) (c : Catalogue) (index : Nat) : List Step → Walk → Except Fault Walk
  | [], w => .ok w
  | s :: ss, w => do steps p c (index + 1) ss (← w.step p c index s)

/-- What is known at the end. -/
def finish (p : Path) (w : Walk) : Except Fault Summary :=
  match w.levels with
  | [] => .error (.malformed (p.steps.length - 1) .noValueAtEnd)
  | l :: _ =>
    .ok
      { value := l.value
        sink := w.sink
        trace := w.trace
        notes := w.notes
        pending := l.pending
        source := w.source
        sourceIsSensitive := w.sourceIsSensitive
        isSensitive := w.isSensitive
        redactedAt := w.redactedAt
        boundingStep := l.boundingStep
        guaranteeStep := l.guaranteeStep }

end Walk

namespace Path

/-- The path has no more steps than a limit. -/
def checkLength (p : Path) : Option Nat → Except Fault Unit
  | some limit =>
    if p.steps.length ≤ limit then .ok ()
    else .error (.malformed limit (.tooManySteps p.steps.length limit))
  | none => .ok ()

/-- What is known at the end of a path, given a catalogue and a limit on the steps. -/
def summarize (c : Catalogue) (maxSteps : Option Nat) (p : Path) : Except Fault Summary := do
  p.validate
  p.checkLength maxSteps
  let w ← Walk.steps p c 0 p.steps {}
  w.finish p

end Path

end FlowSafety
