import FlowSafety.Path.Basic
import FlowSafety.Text.Decimal

/-!
# Numeric operators on values

What an operator makes of the values of its operands. An operator that lacks one operand takes the
value that flows along the path as its first.
-/

namespace FlowSafety

/-! ## Reading integers -/

namespace TextGuarantee

/-- The least interval around some integers. -/
def hullOf (vs : List Int64) : Option Interval :=
  match vs with
  | [] => none
  | v :: vs =>
    let lower (a b : Int64) : Int64 := if b.toInt < a.toInt then b else a
    let upper (a b : Int64) : Int64 := if a.toInt < b.toInt then b else a
    some (.range (vs.foldl lower v) (vs.foldl upper v))

/-- The most digits such that every numeral of so many digits fits 64 bits. -/
def safeDigits : Nat := 18

/-- The integers that the text can be read as. Known values are read one by one; digits only make a
number that is not negative and has no more digits than the text. Constant text that stands beside
the digits is not looked at, so what a sign in it makes of them is left out. -/
def parsed (g : TextGuarantee) (type : IntType) : Interval :=
  let known := g.values.bind fun values => hullOf (values.toList.filterMap Text.int64?)
  match known with
  | some iv => iv.meet type.range
  | none =>
    if g.charset = .digits then
      let high : Bound := match g.maxLength with
        | some n => if n ≤ safeDigits then .ofInt (Nat.pow 10 n - 1 : Nat) else .posInf
        | none => .posInf
      (Interval.ofBounds (.finite 0) high).meet type.range
    else type.range

end TextGuarantee

/-! ## Operators -/

namespace Operator

/-- The intervals of some values, all of which have to be integers. -/
def intervals (name : String) : List Value → Except PathFault (List Interval)
  | [] => .ok []
  | .integer iv :: vs => (intervals name vs).map (iv :: ·)
  | .text _ :: _ => .error (.numericOnText name)

/-- The guarantee of the only value, which has to be a text. -/
def onlyText (name : String) : List Value → Except PathFault TextGuarantee
  | [.text g] => .ok g
  | [.integer _] => .error (.textExpected name)
  | vs => .error (.oneOperandExpected name vs.length)

/-- The operands, completed by the flowing value where one is missing. -/
def completed (o : Operator) (inputs : List Value) (current : Value) : List Value :=
  match o.arity? with
  | some 0 => inputs
  | some n => if inputs.length + 1 = n then current :: inputs else inputs
  | none => if inputs.length = 1 then current :: inputs else inputs

/-- Two operands or more, folded. -/
def foldTwo (name : String) (f : Interval → Interval → Interval) :
    List Interval → Except PathFault Interval
  | [] => .error (.noOperands name)
  | [_] => .error (.tooFewOperands name)
  | iv :: ivs => .ok (ivs.foldl f iv)

/-- The result of an operator on intervals. -/
def onIntervals (o : Operator) (ivs : List Interval) : Except PathFault Interval :=
  match o, ivs with
  | .add, [a, b] => .ok (a.add b)
  | .sub, [a, b] => .ok (a.sub b)
  | .mul, [a, b] => .ok (a.mul b)
  | .div, [a, b] => .ok (a.div b)
  | .rem, [a, b] => .ok (a.rem b)
  | .bitAnd, [a, b] => .ok (a.bitAnd b)
  | .shr, [a, b] => .ok (a.shiftRight b)
  | .abs, [a] => .ok a.abs
  | .neg, [a] => .ok a.neg
  | .clamp, [a, lo, hi] => .ok (a.clamp lo hi)
  | .min, ivs => foldTwo o.name .minimum ivs
  | .max, ivs => foldTwo o.name .maximum ivs
  | .ternary, ivs => foldTwo o.name .join ivs
  | o, _ => .error (.notOnIntervals o.name)

/-- The number of operands fits. An operator on an enumeration takes none and looks at none. -/
def checkCount (o : Operator) (inputs : List Value) : Except PathFault Unit :=
  match o.arity? with
  | some 0 => .ok ()
  | some n =>
    if inputs.length = n then .ok () else .error (.operandCount o.name n inputs.length)
  | none => .ok ()

/-- The result of an operator; `current` is the flowing value. -/
def evaluate (o : Operator) (inputs : List Value) (current : Value) :
    Except PathFault Interval := do
  let inputs := o.completed inputs current
  o.checkCount inputs
  match o with
  | .parseInt type => return (← onlyText o.name inputs).parsed type
  | .length =>
    match (← onlyText o.name inputs).maxLength with
    | some n => return .upTo n
    | none => return .atLeast 0
  | .enumOrdinal arity => return .below arity
  | .enumValue values =>
    match TextGuarantee.hullOf values with
    | some iv => return iv
    | none => throw .noCandidates
  | .call name => throw (.unresolvedCall name)
  | o => o.onIntervals (← intervals o.name inputs)

end Operator

end FlowSafety
