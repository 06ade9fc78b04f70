import FlowSafety.Fault
import FlowSafety.Sink
import FlowSafety.Text.Quoted

/-!
# Paths

A path leads from the source of a tainted value to a sink, one operation after another. Operands can
name earlier steps, so an expression with several inputs is a step like any other.

Branches are kept in a table. Every guard that the path passes has an entry with the branch around
it, its condition, and which way the path took. A step carries the innermost branch that it is in,
so leaving a branch shows without any control flow.
-/

namespace FlowSafety

/-! ## Operations -/

/-- A numeric operator. -/
inductive Operator where
  /-- Reading a text as an integer of a type. -/
  | parseInt (type : IntType)
  | add
  | sub
  | mul
  /-- Division truncated toward zero. -/
  | div
  /-- Remainder; for a positive divisor also the floor modulus. -/
  | rem
  | bitAnd
  /-- Arithmetic shift to the right. -/
  | shr
  | abs
  | neg
  | min
  | max
  /-- The value, a lower and an upper limit. -/
  | clamp
  /-- A conditional expression: any of its alternatives. -/
  | ternary
  /-- The position of a constant in an enumeration with so many constants. -/
  | enumOrdinal (arity : Nat)
  /-- One of the integers that the constants of an enumeration carry. -/
  | enumValue (values : List Int64)
  /-- The length of a text. -/
  | length
  /-- A helper by its name in the catalogue. -/
  | call (name : String)
deriving DecidableEq, Repr

namespace Operator

/-- The number of operands, where it is fixed. -/
def arity? : Operator → Option Nat
  | .parseInt _ | .abs | .neg | .length => some 1
  | .add | .sub | .mul | .div | .rem | .bitAnd | .shr => some 2
  | .clamp => some 3
  | .enumOrdinal _ | .enumValue _ => some 0
  | .min | .max | .ternary | .call _ => none

def name : Operator → String
  | .parseInt _ => "parse_int"
  | .add => "add"
  | .sub => "sub"
  | .mul => "mul"
  | .div => "div"
  | .rem => "rem"
  | .bitAnd => "bitand"
  | .shr => "shr"
  | .abs => "abs"
  | .neg => "neg"
  | .min => "min"
  | .max => "max"
  | .clamp => "clamp"
  | .ternary => "ternary"
  | .enumOrdinal _ => "enum_ordinal"
  | .enumValue _ => "enum_value"
  | .length => "length"
  | .call name => name

end Operator

/-- An input of a numeric operator. -/
inductive Operand where
  /-- The value that flows along the path. -/
  | current
  | const (value : Int64)
  /-- An untainted value of which only the range is known. -/
  | range (interval : Interval)
  /-- The result of an earlier step. -/
  | step (index : Nat)
deriving DecidableEq, Repr

/-- An argument of a string transform. -/
inductive Argument where
  /-- The place of the value that flows along the path. -/
  | current
  /-- Text that a developer wrote. -/
  | literal (text : String)
  | int (value : Int64)
  /-- The result of an earlier step. -/
  | step (index : Nat)
deriving DecidableEq, Repr

/-- What a source produces. -/
inductive SourceKind where
  | text
  | integer (type : IntType)
deriving DecidableEq, Repr

/-- Where the tainted value comes from. -/
structure Source where
  name : String
  kind : SourceKind
  /-- The value is personal data. -/
  isSensitive : Bool := false
deriving DecidableEq, Repr

namespace Source

def ofText (name : String) : Source := { name := name, kind := .text }

def ofInteger (name : String) (type : IntType) : Source := { name := name, kind := .integer type }

/-- The same source of personal data. -/
def sensitive (s : Source) : Source := { s with isSensitive := true }

end Source

/-- One operation of a path. -/
inductive Operation where
  | source (source : Source)
  | numeric (operator : Operator) (operands : List Operand)
  | string (name : String) (arguments : List Argument)
  /-- Enter a branch of the table. -/
  | guard (branch : Nat)
  | sink (sink : Sink)
deriving DecidableEq, Repr

/-! ## Branches -/

/-- An integer comparison. -/
inductive Comparison where
  | lt
  | le
  | gt
  | ge
  | eq
  | ne
deriving DecidableEq, Repr

namespace Comparison

def all : List Comparison := [.lt, .le, .gt, .ge, .eq, .ne]

def name : Comparison → String
  | .lt => "lt"
  | .le => "le"
  | .gt => "gt"
  | .ge => "ge"
  | .eq => "eq"
  | .ne => "ne"

def symbol : Comparison → String
  | .lt => "<"
  | .le => "<="
  | .gt => ">"
  | .ge => ">="
  | .eq => "=="
  | .ne => "!="

/-- The comparison that holds where this one does not. -/
def negate : Comparison → Comparison
  | .lt => .ge
  | .le => .gt
  | .gt => .le
  | .ge => .lt
  | .eq => .ne
  | .ne => .eq

/-- Whether the comparison holds between two integers. -/
def Holds : Comparison → Int → Int → Prop
  | .lt, a, b => a < b
  | .le, a, b => a ≤ b
  | .gt, a, b => b < a
  | .ge, a, b => b ≤ a
  | .eq, a, b => a = b
  | .ne, a, b => a ≠ b

/-- The values for which the comparison with a bound holds, where they form an interval. -/
def admitted? (c : Comparison) (bound : Int64) : Option Interval :=
  match c with
  | .lt => some (if bound = Int64.minValue then .empty else .atMost (bound - 1))
  | .le => some (.atMost bound)
  | .gt => some (if bound = Int64.maxValue then .empty else .atLeast (bound + 1))
  | .ge => some (.atLeast bound)
  | .eq => some (.constant bound)
  | .ne => none

end Comparison

/-- What a guard tests. -/
inductive Condition where
  /-- An integer compared with a bound. -/
  | compare (comparison : Comparison) (bound : Int64)
  /-- A text checked against a pattern; `full` says that the whole text has to match. -/
  | matchesPattern (pattern : String) (full : Bool)
  /-- A value looked up in a list that a developer wrote. -/
  | inAllowList (values : TextSet)
deriving DecidableEq

/-- Which way a path took at a guard. -/
inductive GuardOutcome where
  | passed
  | failed
deriving DecidableEq, Repr

/-- An entry of the branch table. -/
structure Branch where
  /-- The branch around it. -/
  parent : Option Nat
  condition : Condition
  outcome : GuardOutcome
deriving DecidableEq

/-! ## Paths -/

/-- A step, and the innermost branch that it is in. -/
structure Step where
  op : Operation
  branch : Option Nat
deriving DecidableEq

/-- A path from a source to a sink. -/
structure Path where
  version : Nat
  branches : List Branch
  steps : List Step
deriving DecidableEq

namespace Path

/-- The sink that the path ends in. -/
def sink? (p : Path) : Option Sink :=
  match p.steps.getLast? with
  | some { op := .sink s, .. } => some s
  | _ => none

/-- Whether a branch is the other one or lies inside it. The search goes from a branch to its parent
as long as that is an earlier branch, which on a valid path it always is, and answers `false` where
it is not. A search that does not look at this would go on, in a circle of parents for ever. That
one is `Path.climb` in `Proofs/Path/Ancestry.lean`; on a valid path the two agree. -/
def liesIn (branches : List Branch) (outer inner : Nat) : Bool :=
  if inner = outer then true
  else
    match branches[inner]? with
    | some { parent := some parent, .. } =>
      if parent < inner then liesIn branches outer parent else false
    | _ => false
termination_by inner

/-- Whether code in the inner branch also runs inside the outer one. Outside of all branches runs
everything. -/
def encloses (p : Path) : Option Nat → Option Nat → Bool
  | none, _ => true
  | some _, none => false
  | some outer, some inner => liesIn p.branches outer inner

end Path

/-! ## Text -/

namespace Operand

def text : Operand → String
  | .current => "value"
  | .const v => toString v.toInt
  | .range iv => iv.text
  | .step i => s!"#{i}"

end Operand

namespace Argument

def text : Argument → String
  | .current => "value"
  | .literal s => Text.quoted s
  | .int v => toString v.toInt
  | .step i => s!"#{i}"

end Argument

namespace Condition

def text : Condition → String
  | .compare c bound => s!"value {c.symbol} {bound.toInt}"
  | .matchesPattern pattern true => s!"value matches /{pattern}/"
  | .matchesPattern pattern false => s!"value finds /{pattern}/"
  | .inAllowList values => s!"value in allow-list ({values.size} values)"

end Condition

namespace Operation

/-- Parts with commas between them. -/
def commaSeparated (parts : List String) : String := ", ".intercalate parts

def text : Operation → String
  | .source s => "source " ++ s.name ++ (if s.isSensitive then " (sensitive)" else "")
  | .numeric (.parseInt type) operands =>
    s!"parse_int<{type.label}>({commaSeparated (operands.map Operand.text)})"
  | .numeric (.enumOrdinal arity) _ => s!"enum ordinal of {arity} constants"
  | .numeric (.enumValue values) _ =>
    s!"enum value of [{commaSeparated (values.map fun v => toString v.toInt)}]"
  | .numeric operator operands =>
    s!"{operator.name}({commaSeparated (operands.map Operand.text)})"
  | .string name arguments => s!"{name}({commaSeparated (arguments.map Argument.text)})"
  | .guard branch => s!"enter branch {branch}"
  | .sink s => s!"sink {s.name}"

end Operation

end FlowSafety
