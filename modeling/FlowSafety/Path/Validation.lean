import FlowSafety.Path.Basic
import FlowSafety.Pattern.Search

/-!
# Validation of paths

Everything about a path that can be checked without evaluating it: the version, the branch table,
the source at the start, the sink at the end, branches and steps that operations refer to, and the
patterns of the guards. The first fault in this order is the one that is reported.
-/

namespace FlowSafety.Path

/-- Branches come after their parents. -/
def validateBranches (start : Nat) : List Branch → Except Fault Unit
  | [] => .ok ()
  | b :: bs =>
    match b.parent with
    | some parent =>
      if start ≤ parent then .error (.malformed 0 (.parentNotEarlier start parent))
      else validateBranches (start + 1) bs
    | none => validateBranches (start + 1) bs

/-- References point to steps before the given one. -/
def validateReferences (index : Nat) : List (Option Nat) → Except Fault Unit
  | [] => .ok ()
  | some target :: targets =>
    if index ≤ target then .error (.malformed index (.referenceNotEarlier target))
    else validateReferences index targets
  | none :: targets => validateReferences index targets

/-- The step that an operand refers to. -/
def operandTarget : Operand → Option Nat
  | .step target => some target
  | _ => none

/-- The step that an argument refers to. -/
def argumentTarget : Argument → Option Nat
  | .step target => some target
  | _ => none

/-- An operator on the constants of an enumeration has some. -/
def validateOperator (index : Nat) : Operator → Except Fault Unit
  | .enumOrdinal 0 => .error (.malformed index .noConstants)
  | .enumValue [] => .error (.malformed index .noCandidates)
  | _ => .ok ()

/-- The pattern of a guard can be searched for. -/
def validateCondition (index : Nat) : Condition → Except Fault Unit
  | .matchesPattern pattern _ =>
    if Pattern.isValid pattern then .ok () else .error (.malformed index (.invalidPattern pattern))
  | _ => .ok ()

/-- The operation of a step fits its place. -/
def validateOperation (p : Path) (index : Nat) (s : Step) : Except Fault Unit :=
  match s.op with
  | .source _ => if index = 0 then .ok () else .error (.malformed index .sourceNotFirst)
  | .numeric operator operands => do
    validateReferences index (operands.map operandTarget)
    validateOperator index operator
  | .string _ arguments => validateReferences index (arguments.map argumentTarget)
  | .guard id =>
    match p.branches[id]? with
    | none => .error (.malformed index (.guardOfUnknownBranch id))
    | some branch =>
      if s.branch = some id then validateCondition index branch.condition
      else .error (.malformed index (.guardOutsideBranch id))
  | .sink _ =>
    if index + 1 = p.steps.length then .ok () else .error (.malformed index .sinkNotLast)

/-- The branch of a step is in the table, and its operation fits. -/
def validateStep (p : Path) (index : Nat) (s : Step) : Except Fault Unit :=
  match s.branch with
  | some branch =>
    if branch < p.branches.length then validateOperation p index s
    else .error (.malformed index (.unknownBranch branch))
  | none => validateOperation p index s

/-- All steps from the given place on are valid. -/
def validateSteps (p : Path) (index : Nat) : List Step → Except Fault Unit
  | [] => .ok ()
  | s :: ss => do
    validateStep p index s
    validateSteps p (index + 1) ss

/-- The path starts with a source. -/
def validateStart : List Step → Except Fault Unit
  | [] => .error (.malformed 0 .noSteps)
  | { op := .source _, .. } :: _ => .ok ()
  | _ => .error (.malformed 0 .noSource)

/-- The first fault of a path, if it has any. -/
def validate (p : Path) : Except Fault Unit := do
  if p.version ≠ pathVersion then
    throw (.malformed 0 (.unsupportedVersion p.version))
  validateBranches 0 p.branches
  validateStart p.steps
  validateSteps p 0 p.steps

end FlowSafety.Path
