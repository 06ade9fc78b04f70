/-!
# Bounds

One end of an integer interval: a 64-bit integer or one of the two infinities. Arithmetic on bounds
is exact integer arithmetic followed by `Bound.ofInt`, which sends a result that does not fit 64
bits to the infinity on its side. An end that is computed in one step therefore lets in every value
that the exact end lets in. An end that is computed from a saturated one need not: the negation of
the least integer goes to `posInf`, and a sum with it stays there, however small the other summand
is.

The order is `negInf`, then the finite bounds by value, then `posInf`.
-/

namespace FlowSafety

/-- One end of an interval. -/
inductive Bound where
  /-- Unbounded below. -/
  | negInf
  /-- A concrete bound. -/
  | finite (value : Int64)
  /-- Unbounded above. -/
  | posInf
deriving DecidableEq, Repr, Inhabited

namespace Bound

/-! ## Order -/

/-- The order of bounds: `negInf` is least, `posInf` greatest, finite bounds go by value. -/
def Le : Bound → Bound → Prop
  | .negInf, _ => True
  | _, .posInf => True
  | .finite a, .finite b => a.toInt ≤ b.toInt
  | _, _ => False

instance : LE Bound := ⟨Le⟩

instance decidableLe : (a b : Bound) → Decidable (a ≤ b)
  | .negInf, .negInf => isTrue trivial
  | .negInf, .finite _ => isTrue trivial
  | .negInf, .posInf => isTrue trivial
  | .finite _, .posInf => isTrue trivial
  | .posInf, .posInf => isTrue trivial
  | .finite a, .finite b => inferInstanceAs (Decidable (a.toInt ≤ b.toInt))
  | .finite _, .negInf => isFalse id
  | .posInf, .negInf => isFalse id
  | .posInf, .finite _ => isFalse id

instance : LT Bound := ⟨fun a b => ¬ b ≤ a⟩

instance decidableLt (a b : Bound) : Decidable (a < b) :=
  inferInstanceAs (Decidable (¬ b ≤ a))

instance : Min Bound := ⟨fun a b => if a ≤ b then a else b⟩
instance : Max Bound := ⟨fun a b => if b ≤ a then a else b⟩

/-! ## Bounds against integers -/

/-- The bound, read as a lower end, admits the integer `z`. -/
def AtMost : Bound → Int → Prop
  | .negInf, _ => True
  | .finite v, z => v.toInt ≤ z
  | .posInf, _ => False

/-- The bound, read as an upper end, admits the integer `z`. -/
def AtLeast : Bound → Int → Prop
  | .negInf, _ => False
  | .finite v, z => z ≤ v.toInt
  | .posInf, _ => True

instance : (b : Bound) → (z : Int) → Decidable (b.AtMost z)
  | .negInf, _ => isTrue trivial
  | .finite v, z => inferInstanceAs (Decidable (v.toInt ≤ z))
  | .posInf, _ => isFalse id

instance : (b : Bound) → (z : Int) → Decidable (b.AtLeast z)
  | .negInf, _ => isFalse id
  | .finite v, z => inferInstanceAs (Decidable (z ≤ v.toInt))
  | .posInf, _ => isTrue trivial

/-- The value of a finite bound. -/
def finite? : Bound → Option Int64
  | .finite v => some v
  | _ => none

/-! ## Arithmetic -/

/-- The bound at an integer: the infinity on its side if it does not fit 64 bits. -/
def ofInt (z : Int) : Bound :=
  if z < Int64.minValue.toInt then .negInf
  else if Int64.maxValue.toInt < z then .posInf
  else .finite (Int64.ofInt z)

/-- The bound at a count, which stops at the largest integer of 64 bits. -/
def ofCount (n : Nat) : Bound := ofInt (min (n : Int) Int64.maxValue.toInt)

/-- The sign of a bound: `-1`, `0` or `1`. -/
def sign : Bound → Int
  | .negInf => -1
  | .finite v => v.toInt.sign
  | .posInf => 1

/-- The infinity of a sign; zero counts as positive. -/
def infinity (s : Int) : Bound := if s < 0 then .negInf else .posInf

def neg : Bound → Bound
  | .negInf => .posInf
  | .finite v => ofInt (-v.toInt)
  | .posInf => .negInf

/-- Addition. Opposite infinities give `conflict`, the infinity of the end being computed. -/
def add (conflict : Bound) : Bound → Bound → Bound
  | .finite a, .finite b => ofInt (a.toInt + b.toInt)
  | .negInf, .posInf => conflict
  | .posInf, .negInf => conflict
  | .negInf, _ => .negInf
  | _, .negInf => .negInf
  | .posInf, _ => .posInf
  | _, .posInf => .posInf

/-- Multiplication. Zero times an infinity is zero: the infinity stands for arbitrarily large
integers, never for a value of its own. -/
def mul : Bound → Bound → Bound
  | .finite a, .finite b => ofInt (a.toInt * b.toInt)
  | a, b => if a.sign * b.sign = 0 then .finite 0 else infinity (a.sign * b.sign)

/-- Division truncated toward zero, by a divisor that is not zero. -/
def div : Bound → Bound → Bound
  | .finite a, .finite b => ofInt (a.toInt.tdiv b.toInt)
  | .finite _, _ => .finite 0
  | a, b => infinity (a.sign * b.sign)

/-- Arithmetic shift to the right, which rounds down. -/
def shiftRight (amount : Nat) : Bound → Bound
  | .finite v => ofInt (v.toInt >>> amount)
  | b => b

/-- How a bound is written: `-inf`, `+inf` or the number. -/
def text : Bound → String
  | .negInf => "-inf"
  | .finite v => toString v.toInt
  | .posInf => "+inf"

end Bound

end FlowSafety
