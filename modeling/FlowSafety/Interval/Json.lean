import FlowSafety.Interval.IntType
import FlowSafety.Json.Decode

/-!
# Intervals in JSON

A bound is `"NegInf"`, `"PosInf"` or `{"Finite": n}`. An interval is the record of its ends; it is
read as it stands, so one with inverted or saturated ends stays as it is.
-/

namespace FlowSafety

namespace Bound

def toJson : Bound → Json
  | .negInf => .ofText "NegInf"
  | .finite v => .variant "Finite" (.ofInt v.toInt)
  | .posInf => .ofText "PosInf"

def ofJson? (j : Json) : Option Bound :=
  j.choice?.bind fun c =>
    match c with
    | ("NegInf", none) | ("NegInf", some .null) => some .negInf
    | ("PosInf", none) | ("PosInf", some .null) => some .posInf
    | ("Finite", some argument) => argument.int64?.map .finite
    | _ => none

end Bound

namespace Interval

def toJson (iv : Interval) : Json := .object [("low", iv.low.toJson), ("high", iv.high.toJson)]

def ofJson? (j : Json) : Option Interval :=
  (j.record? ["low", "high"]).bind fun fields =>
    match fields with
    | [low, high] => do return ⟨← low.required Bound.ofJson?, ← high.required Bound.ofJson?⟩
    | _ => none

end Interval

def IntType.ofJson? (j : Json) : Option IntType := j.unitChoice? IntType.all IntType.name

end FlowSafety
