import FlowSafety.Interval.Json
import FlowSafety.Charset.Json
import FlowSafety.Json.Printer
import FlowSafety.Path.Validation

/-!
# The persisted form of paths

`Path.toJson` writes a path and `Path.ofJson?` reads it. `Path.ofText` reads a path from a text and
validates it.

The branch of a step is left out where there is none. A reader may leave out operands, arguments,
the branch table, the parent of a branch, the branch of a step, and whether a source is sensitive or
a pattern has to match the whole text.
-/

namespace FlowSafety

/-! ## Writing -/

namespace Operator

def toJson : Operator → Json
  | .parseInt type => .variant "parse_int" (.ofText type.name)
  | .add => .ofText "add"
  | .sub => .ofText "sub"
  | .mul => .ofText "mul"
  | .div => .ofText "div"
  | .rem => .ofText "rem"
  | .bitAnd => .ofText "bit_and"
  | .shr => .ofText "shr"
  | .abs => .ofText "abs"
  | .neg => .ofText "neg"
  | .min => .ofText "min"
  | .max => .ofText "max"
  | .clamp => .ofText "clamp"
  | .ternary => .ofText "ternary"
  | .enumOrdinal arity => .variant "enum_ordinal" (.object [("arity", .ofNat arity)])
  | .enumValue values =>
    .variant "enum_value" (.object [("values", .ofList (fun v => .ofInt v.toInt) values)])
  | .length => .ofText "length"
  | .call name => .variant "call" (.ofText name)

end Operator

def Operand.toJson : Operand → Json
  | .current => .ofText "current"
  | .const v => .variant "const" (.ofInt v.toInt)
  | .range iv => .variant "range" iv.toJson
  | .step i => .variant "step" (.ofNat i)

def Argument.toJson : Argument → Json
  | .current => .ofText "current"
  | .literal s => .variant "literal" (.ofText s)
  | .int v => .variant "int" (.ofInt v.toInt)
  | .step i => .variant "step" (.ofNat i)

def SourceKind.toJson : SourceKind → Json
  | .text => .ofText "text"
  | .integer type => .variant "integer" (.ofText type.name)

def Source.toJson (s : Source) : Json :=
  .object
    [("name", .ofText s.name), ("kind", s.kind.toJson), ("sensitive", .bool s.isSensitive)]

def Operation.toJson : Operation → Json
  | .source s => .variant "source" s.toJson
  | .numeric operator operands =>
    .variant "numeric_op"
      (.object [("kind", operator.toJson), ("operands", .ofList Operand.toJson operands)])
  | .string name arguments =>
    .variant "string_op"
      (.object [("name", .ofText name), ("args", .ofList Argument.toJson arguments)])
  | .guard branch => .variant "guard" (.ofNat branch)
  | .sink s => .variant "sink_tag" (.ofText s.name)

def Condition.toJson : Condition → Json
  | .compare c bound =>
    .variant "compare" (.object [("op", .ofText c.name), ("bound", .ofInt bound.toInt)])
  | .matchesPattern pattern full =>
    .variant "matches" (.object [("pattern", .ofText pattern), ("full_match", .bool full)])
  | .inAllowList values => .variant "in_allow_list" (.object [("values", values.toJson)])

namespace GuardOutcome

def name : GuardOutcome → String
  | .passed => "passed"
  | .failed => "failed"

def ofJson? (j : Json) : Option GuardOutcome := j.unitChoice? [.passed, .failed] name

end GuardOutcome

def Branch.toJson (b : Branch) : Json :=
  .object
    [("parent", .ofOption .ofNat b.parent), ("condition", b.condition.toJson),
      ("outcome", .ofText b.outcome.name)]

namespace Step

/-- The member for the branch of a step. -/
def branchMember : Option Nat → List (String × Json)
  | some branch => [("branch", .ofNat branch)]
  | none => []

def toJson (s : Step) : Json := .object (("op", s.op.toJson) :: branchMember s.branch)

end Step

def Path.toJson (p : Path) : Json :=
  .object
    [("version", .ofNat p.version), ("branches", .ofList Branch.toJson p.branches),
      ("steps", .ofList Step.toJson p.steps)]

/-! ## Reading -/

def Sink.ofJson? (j : Json) : Option Sink := j.unitChoice? Sink.all Sink.name

def Comparison.ofJson? (j : Json) : Option Comparison :=
  j.unitChoice? Comparison.all Comparison.name

namespace Operator

/-- The operators without arguments. -/
def plain : List Operator :=
  [.add, .sub, .mul, .div, .rem, .bitAnd, .shr, .abs, .neg, .min, .max, .clamp, .ternary, .length]

/-- The name of an operator without arguments in the persisted form. -/
def persistedName : Operator → String
  | .bitAnd => "bit_and"
  | operator => operator.name

def ofJson? (form : Json.Form) (j : Json) : Option Operator :=
  j.choice?.bind fun c =>
    match c with
    | ("parse_int", some type) => (IntType.ofJson? type).map .parseInt
    | ("enum_ordinal", some fields) =>
      (fields.recordIn? form ["arity"]).bind fun fields =>
        match fields with
        | [arity] => (arity.required Json.size?).map .enumOrdinal
        | _ => none
    | ("enum_value", some fields) =>
      (fields.recordIn? form ["values"]).bind fun fields =>
        match fields with
        | [values] => (values.required (Json.list? Json.int64?)).map .enumValue
        | _ => none
    | ("call", some name) => name.text?.map .call
    | _ => j.unitChoice? plain persistedName

end Operator

def Operand.ofJson? (j : Json) : Option Operand :=
  j.choice?.bind fun c =>
    match c with
    | ("current", none) | ("current", some .null) => some .current
    | ("const", some v) => v.int64?.map .const
    | ("range", some iv) => (Interval.ofJson? iv).map .range
    | ("step", some i) => i.size?.map .step
    | _ => none

def Argument.ofJson? (j : Json) : Option Argument :=
  j.choice?.bind fun c =>
    match c with
    | ("current", none) | ("current", some .null) => some .current
    | ("literal", some s) => s.text?.map .literal
    | ("int", some v) => v.int64?.map .int
    | ("step", some i) => i.size?.map .step
    | _ => none

def SourceKind.ofJson? (j : Json) : Option SourceKind :=
  j.choice?.bind fun c =>
    match c with
    | ("text", none) | ("text", some .null) => some .text
    | ("integer", some type) => (IntType.ofJson? type).map .integer
    | _ => none

def Source.ofJson? (j : Json) : Option Source :=
  (j.record? ["name", "kind", "sensitive"]).bind fun fields =>
    match fields with
    | [name, kind, sensitive] => do
      return {
        name := ← name.required Json.text?
        kind := ← kind.required SourceKind.ofJson?
        isSensitive := ← sensitive.withDefault false Json.bool? }
    | _ => none

def Operation.ofJson? (form : Json.Form) (j : Json) : Option Operation :=
  j.choice?.bind fun c =>
    match c with
    | ("source", some s) => (Source.ofJson? s).map .source
    | ("numeric_op", some fields) =>
      (fields.recordIn? form ["kind", "operands"]).bind fun fields =>
        match fields with
        | [operator, operands] => do
          return .numeric (← operator.required (Operator.ofJson? form))
            (← operands.withDefault [] (Json.list? Operand.ofJson?))
        | _ => none
    | ("string_op", some fields) =>
      (fields.recordIn? form ["name", "args"]).bind fun fields =>
        match fields with
        | [name, arguments] => do
          return .string (← name.required Json.text?)
            (← arguments.withDefault [] (Json.list? Argument.ofJson?))
        | _ => none
    | ("guard", some branch) => branch.size?.map .guard
    | ("sink_tag", some s) => (Sink.ofJson? s).map .sink
    | _ => none

def Condition.ofJson? (form : Json.Form) (j : Json) : Option Condition :=
  j.choice?.bind fun c =>
    match c with
    | ("compare", some fields) =>
      (fields.recordIn? form ["op", "bound"]).bind fun fields =>
        match fields with
        | [comparison, bound] => do
          return .compare (← comparison.required Comparison.ofJson?) (← bound.required Json.int64?)
        | _ => none
    | ("matches", some fields) =>
      (fields.recordIn? form ["pattern", "full_match"]).bind fun fields =>
        match fields with
        | [pattern, full] => do
          return .matchesPattern (← pattern.required Json.text?)
            (← full.withDefault true Json.bool?)
        | _ => none
    | ("in_allow_list", some fields) =>
      (fields.recordIn? form ["values"]).bind fun fields =>
        match fields with
        | [values] => (values.required TextSet.ofJson?).map .inAllowList
        | _ => none
    | _ => none

def Branch.ofJson? (form : Json.Form) (j : Json) : Option Branch :=
  (j.record? ["parent", "condition", "outcome"]).bind fun fields =>
    match fields with
    | [parent, condition, outcome] => do
      return {
        parent := ← parent.withDefault none (Json.nullable? Json.size?)
        condition := ← condition.required (Condition.ofJson? form)
        outcome := ← outcome.required GuardOutcome.ofJson? }
    | _ => none

def Step.ofJson? (form : Json.Form) (j : Json) : Option Step :=
  (j.record? ["op", "branch"]).bind fun fields =>
    match fields with
    | [op, branch] => do
      return {
        op := ← op.required (Operation.ofJson? form)
        branch := ← branch.withDefault none (Json.nullable? Json.size?) }
    | _ => none

namespace Path

def ofJson? (form : Json.Form) (j : Json) : Option Path :=
  (j.record? ["version", "branches", "steps"]).bind fun fields =>
    match fields with
    | [version, branches, steps] => do
      return {
        version := ← version.required (Json.nat? Size.largestSmall)
        branches := ← branches.withDefault [] (Json.list? (Branch.ofJson? form))
        steps := ← steps.required (Json.list? (Step.ofJson? form)) }
    | _ => none

/-- The path that a text holds, if it is valid. -/
def ofText (text : String) : Except Fault Path :=
  match (Json.parse? text).bind (ofJson? .document) with
  | none => .error .notDecodable
  | some p => p.validate.map fun _ => p

/-- The path in a file, given its contents if the file can be read. -/
def ofFile (contents : Option String) : Except Fault Path :=
  match contents with
  | none => .error .unreadable
  | some text => ofText text

/-- The path as a text that `ofText` reads. -/
def toText (p : Path) : String := p.toJson.pretty

end Path

end FlowSafety
