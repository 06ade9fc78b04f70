import FlowSafety.Charset.Basic
import FlowSafety.Interval.Basic

/-!
# Text guarantees

The textual half of the value domain: what a chain of transforms has established about a text,
namely its charset, a bound on its length, and the finite set of its values where one is known.
-/

namespace FlowSafety

/-- What is known about a text. -/
structure TextGuarantee where
  charset : Charset
  /-- The most characters it has. -/
  maxLength : Option Nat := none
  /-- Every value it can have. -/
  values : Option TextSet := none
deriving DecidableEq

namespace TextGuarantee

/-- Nothing is known: the guarantee of a raw, untrusted text. -/
def unconstrained : TextGuarantee := { charset := .unconstrained }

instance : Inhabited TextGuarantee := ⟨unconstrained⟩

def isUnconstrained (g : TextGuarantee) : Bool := g.charset.isUnconstrained

/-- The text is one of a finite set. -/
def oneOf (values : TextSet) : TextGuarantee :=
  { charset := .oneOf values, maxLength := some values.longest, values := some values }

/-! ## Numerals -/

/-- The number of digits of a numeral: one, and one more for every division by the radix that it
takes to get below the radix. The first number bounds the divisions. -/
def digitCountFrom (radix : Nat) : Nat → Nat → Nat
  | 0, _ => 1
  | bound + 1, n => if n < radix then 1 else digitCountFrom radix bound (n / radix) + 1

/-- The number of digits of a numeral. -/
def digitCount (radix n : Nat) : Nat := digitCountFrom radix n n

/-- The magnitude of a bound; of an infinite one, that of the widest 64-bit word. -/
def magnitude : Bound → Nat
  | .finite v => v.toInt.natAbs
  | _ => Size.largest

/-- The numeral of an integer. A decimal numeral has a sign if the integer may be negative. In radix
16 a negative integer is written as its two's complement, so there is no sign. -/
def ofInteger (value : Interval) (radix : Nat) : TextGuarantee :=
  if value.isEmpty then { charset := .digits, maxLength := some 0 }
  else
    let negative : Bool := value.low < .finite 0
    let widest := max (magnitude value.low) (magnitude value.high)
    if radix = 16 then
      { charset := .hexDigits, maxLength := some (if negative then 16 else digitCount 16 widest) }
    else if negative then
      { charset := .format (CharClass.digits.union (.ofText "-")) none
        maxLength := some (digitCount 10 widest + 1) }
    else { charset := .digits, maxLength := some (digitCount 10 widest) }

/-! ## Transforms -/

/-- The first `length` characters. The charset is left alone. -/
def truncate (g : TextGuarantee) (length : Nat) : TextGuarantee :=
  { g with
    maxLength := some (match g.maxLength with | some m => min m length | none => length)
    values := g.values.map (·.map fun v => String.ofList (v.toList.take length)) }

/-- A mapping to lower or upper case. Known values are mapped exactly. Whether a character can grow
is read off the charset, which constant text is not part of. -/
def caseMapped (g : TextGuarantee) (lower : Bool) : TextGuarantee :=
  match g.values with
  | some values => oneOf (values.map (Text.mapCase lower))
  | none =>
    { charset := g.charset.caseMapped lower
      maxLength :=
        if g.charset.possible.hasNonAscii then
          g.maxLength.bind fun m => Size.checked (Charset.maxCaseExpansion * m)
        else g.maxLength }

/-- The concatenation of two tracked texts. -/
def concat (g h : TextGuarantee) : TextGuarantee :=
  { charset := g.charset.concat h.charset
    maxLength := g.maxLength.bind fun m => h.maxLength.bind fun n => Size.checked (m + n) }

/-- The length and the values after constant text of a given length is put beside the text. Constant
text is not tainted, so the charset is left alone. -/
def beside (g : TextGuarantee) (length : Nat) (place : String → String) : TextGuarantee :=
  { g with
    maxLength := g.maxLength.bind fun m => Size.checked (m + length)
    values := g.values.map (·.map place) }

/-- Constant text in front. -/
def prepend (g : TextGuarantee) (literal : String) : TextGuarantee :=
  g.beside literal.length (literal ++ ·)

/-- Constant text behind. -/
def append (g : TextGuarantee) (literal : String) : TextGuarantee :=
  g.beside literal.length (· ++ literal)

/-- How a guarantee is written: the charset, and the bound on the length if there is one. -/
def text (g : TextGuarantee) : String :=
  g.charset.text ++
    match g.maxLength with
    | some m => ", max_length=" ++ toString m
    | none => ""

end TextGuarantee

end FlowSafety
