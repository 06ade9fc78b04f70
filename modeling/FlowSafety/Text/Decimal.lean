/-!
# Decimal numerals

Reading 64-bit integers: an optional sign, then decimal digits and nothing else.
-/

namespace FlowSafety.Text

/-- The value of a sequence of decimal digits; none if it is empty or has another character. -/
def digits? (cs : List Char) : Option Nat :=
  if cs.isEmpty || !cs.all Char.isDigit then none
  else some (cs.foldl (fun n c => 10 * n + (c.toNat - 48)) 0)

/-- The value of a numeral. -/
def integer? (s : String) : Option Int :=
  match s.toList with
  | '+' :: cs => (digits? cs).map Int.ofNat
  | '-' :: cs => (digits? cs).map fun n => -Int.ofNat n
  | cs => (digits? cs).map Int.ofNat

/-- The value of a numeral that fits 64 bits. -/
def int64? (s : String) : Option Int64 :=
  (integer? s).bind fun z =>
    if Int64.minValue.toInt ≤ z ∧ z ≤ Int64.maxValue.toInt then some (Int64.ofInt z) else none

end FlowSafety.Text
