import FlowSafety.Charset.Json
import FlowSafety.Interval.Json
import FlowSafety.Value.Basic

/-!
# Values in JSON

A value is a choice between an interval and a guarantee.
-/

namespace FlowSafety.Value

def toJson : Value → Json
  | .integer iv => .variant "integer" iv.toJson
  | .text g => .variant "text" g.toJson

def ofJson? (j : Json) : Option Value :=
  j.choice?.bind fun c =>
    match c with
    | ("integer", some iv) => (Interval.ofJson? iv).map .integer
    | ("text", some g) => (TextGuarantee.ofJson? g).map .text
    | _ => none

end FlowSafety.Value
