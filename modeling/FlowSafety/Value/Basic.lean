import FlowSafety.Charset.Guarantee
import FlowSafety.Interval.IntType

/-!
# Values

What is known about the value of an expression on a path: an interval of integers, or a guarantee on
a text.
-/

namespace FlowSafety

/-- The two kinds of values. -/
inductive ValueKind where
  | numeric
  | string
deriving DecidableEq, Repr

namespace ValueKind

def name : ValueKind → String
  | .numeric => "numeric"
  | .string => "string"

end ValueKind

/-- What is known about a value. -/
inductive Value where
  | integer (interval : Interval)
  | text (guarantee : TextGuarantee)
deriving DecidableEq

namespace Value

def interval? : Value → Option Interval
  | .integer iv => some iv
  | .text _ => none

def guarantee? : Value → Option TextGuarantee
  | .integer _ => none
  | .text g => some g

/-- The upper bound of an integer. -/
def high? (v : Value) : Option Bound := v.interval?.map (·.high)

/-- The value is an integer with a finite upper bound. -/
def hasFiniteHigh (v : Value) : Bool :=
  match v.high? with
  | some (.finite _) => true
  | _ => false

/-- How a value is written. -/
def render : Value → String
  | .integer iv => iv.text
  | .text g => g.text

end Value

end FlowSafety
