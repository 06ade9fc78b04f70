import FlowSafety.Path.Basic

/-!
# Drafts of paths

A draft is a path that is still being put together. A guard opens a branch inside the current one,
and every step is tagged with the innermost branch that is open, so the branch table and the tags
always fit each other.
-/

namespace FlowSafety

/-- A path that is being put together. -/
structure Path.Draft where
  branches : List Branch
  steps : List Step
  /-- The innermost branch that is open. -/
  current : Option Nat
deriving DecidableEq

namespace Path.Draft

/-- A draft that only has its source. -/
def ofSource (s : Source) : Draft :=
  { branches := [], steps := [{ op := .source s, branch := none }], current := none }

/-- The place of the last step. -/
def lastStep (d : Draft) : Nat := d.steps.length - 1

/-- Add an operation in the current branch. -/
def op (d : Draft) (operation : Operation) : Draft :=
  { d with steps := d.steps ++ [{ op := operation, branch := d.current }] }

def numeric (d : Draft) (operator : Operator) (operands : List Operand) : Draft :=
  d.op (.numeric operator operands)

/-- Add a numeric helper by its name in the catalogue. -/
def call (d : Draft) (name : String) (operands : List Operand) : Draft :=
  d.numeric (.call name) operands

def string (d : Draft) (name : String) (arguments : List Argument) : Draft :=
  d.op (.string name arguments)

/-- Open a branch inside the current one. -/
def enter (d : Draft) (condition : Condition) (outcome : GuardOutcome) : Draft :=
  let id := d.branches.length
  let branch := { parent := d.current, condition := condition, outcome := outcome }
  { d with branches := d.branches ++ [branch], current := some id }.op (.guard id)

/-- Open the branch in which a condition holds. -/
def guard (d : Draft) (condition : Condition) : Draft := d.enter condition .passed

/-- Open the branch in which a condition does not hold. -/
def guardFailed (d : Draft) (condition : Condition) : Draft := d.enter condition .failed

/-- Close the innermost branch that is open. -/
def leave (d : Draft) : Draft :=
  { d with current := d.current.bind fun id => d.branches[id]?.bind Branch.parent }

/-- The path so far. -/
def build (d : Draft) : Path :=
  { version := pathVersion, branches := d.branches, steps := d.steps }

/-- The path that ends in a sink here. -/
def sink (d : Draft) (s : Sink) : Path := (d.op (.sink s)).build

end Path.Draft

end FlowSafety
