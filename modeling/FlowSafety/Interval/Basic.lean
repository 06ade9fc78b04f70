import FlowSafety.Interval.Bound

/-!
# Intervals

The numeric half of the value domain. An interval `[low, high]` stands for the integers between its
ends; ends may be infinite. `join` is the hull and `meet` the intersection.

Any pair with `low > high` stands for no integer at all. `Interval.ofBounds` writes all of these the
same way, as `[+inf, -inf]`, and pulls back an end that has saturated to the wrong infinity, so the
operations on canonical intervals answer in canonical form.

The operations are total: a result beyond 64 bits is sent to infinity by `Bound.ofInt`. All of them
but `sub` are sound: the result of an operation on intervals holds the result of the operation on
their members, which for `rem` is the remainder with the sign of the divisor. `sub` negates the ends
of the subtrahend before it adds them, so an end may saturate twice, and where the subtrahend ends
at the least integer of 64 bits differences can be missing. The exact condition is in
`Proofs/Interval/Subtraction.lean`.
-/

namespace FlowSafety

/-- A closed range of integers. -/
structure Interval where
  low : Bound
  high : Bound
deriving DecidableEq, Repr

namespace Interval

/-! ## Membership -/

/-- The integers that an interval stands for. -/
instance : Membership Int Interval := ⟨fun iv z => iv.low.AtMost z ∧ iv.high.AtLeast z⟩

instance (z : Int) (iv : Interval) : Decidable (z ∈ iv) :=
  inferInstanceAs (Decidable (iv.low.AtMost z ∧ iv.high.AtLeast z))

/-- Inverted ends: the interval holds nothing. -/
def isEmpty (iv : Interval) : Bool := decide (iv.high < iv.low)

/-- Nothing is known about the value. -/
def isTop (iv : Interval) : Bool := iv.low = .negInf ∧ iv.high = .posInf

/-- Whether a 64-bit integer lies in the interval. -/
def contains (iv : Interval) (v : Int64) : Bool :=
  !iv.isEmpty && decide (iv.low ≤ .finite v) && decide (Bound.finite v ≤ iv.high)

/-- The only member of an interval with equal finite ends. -/
def constant? (iv : Interval) : Option Int64 :=
  match iv.low, iv.high with
  | .finite a, .finite b => if a = b then some a else none
  | _, _ => none

/-- The interval holds something, and only integers from zero on. -/
def isNonNegative (iv : Interval) : Bool := !iv.isEmpty && decide (.finite 0 ≤ iv.low)

/-! ## Construction -/

/-- The canonical interval without members. -/
def empty : Interval := ⟨.posInf, .negInf⟩

/-- Every integer. -/
def top : Interval := ⟨.negInf, .posInf⟩

instance : Inhabited Interval := ⟨top⟩

/-- The canonical interval between two bounds. Inverted bounds give `empty`; a low end at `+inf` or
a high end at `-inf` is the trace of an overflow and becomes the nearest finite bound. -/
def ofBounds (low high : Bound) : Interval :=
  if high < low then empty
  else
    { low := if low = .posInf then .finite Int64.maxValue else low
      high := if high = .negInf then .finite Int64.minValue else high }

def range (low high : Int64) : Interval := ofBounds (.finite low) (.finite high)

def constant (v : Int64) : Interval := ⟨.finite v, .finite v⟩

def atLeast (low : Int64) : Interval := ofBounds (.finite low) .posInf

def atMost (high : Int64) : Interval := ofBounds .negInf (.finite high)

/-- The integers from zero to a count. -/
def upTo (n : Nat) : Interval := ofBounds (.finite 0) (.ofCount n)

/-- The integers from zero on that are less than a count, as far as the count fits 64 bits. -/
def below (n : Nat) : Interval :=
  ofBounds (.finite 0) (.ofInt (min (n : Int) Int64.maxValue.toInt - 1))

/-- The least interval around some bounds; `top` if there is none. -/
def hull : List Bound → Interval
  | [] => top
  | b :: bs => ofBounds (bs.foldl min b) (bs.foldl max b)

/-! ## Lattice -/

/-- The hull of two intervals. -/
def join (a b : Interval) : Interval :=
  if a.isEmpty then b
  else if b.isEmpty then a
  else ⟨min a.low b.low, max a.high b.high⟩

/-- The common part of two intervals. -/
def meet (a b : Interval) : Interval :=
  if a.isEmpty || b.isEmpty then empty
  else ofBounds (max a.low b.low) (min a.high b.high)

/-! ## Arithmetic -/

def add (a b : Interval) : Interval :=
  if a.isEmpty || b.isEmpty then empty
  else ofBounds (.add .negInf a.low b.low) (.add .posInf a.high b.high)

def sub (a b : Interval) : Interval :=
  if a.isEmpty || b.isEmpty then empty
  else ofBounds (.add .negInf a.low b.high.neg) (.add .posInf a.high b.low.neg)

def neg (a : Interval) : Interval :=
  if a.isEmpty then empty else ofBounds a.high.neg a.low.neg

/-- The values of a binary operation on bounds at the four pairs of ends. -/
def corners (f : Bound → Bound → Bound) (a b : Interval) : List Bound :=
  [f a.low b.low, f a.low b.high, f a.high b.low, f a.high b.high]

def mul (a b : Interval) : Interval :=
  if a.isEmpty || b.isEmpty then empty else hull (corners .mul a b)

/-- Division truncated toward zero. Nothing is known where the divisor may be zero. -/
def div (a b : Interval) : Interval :=
  if a.isEmpty || b.isEmpty then empty
  else if b.contains 0 then top
  else hull (corners .div a b)

/-- The integers smaller in magnitude than a divisor whose magnitude is at most `magnitude`. -/
def remainderWithin : Bound → Interval
  | .finite m => if 0 < m.toInt then ofBounds (.ofInt (1 - m.toInt)) (.ofInt (m.toInt - 1)) else top
  | _ => top

/-- Remainder. A positive constant `m` bounds the result to `[0, m - 1]` whatever the dividend is;
any other divisor bounds it by its own magnitude. -/
def rem (a b : Interval) : Interval :=
  if a.isEmpty || b.isEmpty then empty
  else
    match b.constant? with
    | some m =>
      if 0 < m.toInt then ofBounds (.finite 0) (.ofInt (m.toInt - 1))
      else if m.toInt = 0 then top
      else remainderWithin (max b.low.neg b.high)
    | none => remainderWithin (max b.low.neg b.high)

/-- The greatest value of an interval that is a bit mask: not negative and bounded above. -/
def mask? (a : Interval) : Option Int64 := if a.isNonNegative then a.high.finite? else none

/-- Bitwise conjunction. A value that is not negative clears the sign and every bit above its own,
so the result lies between zero and it. -/
def bitAnd (a b : Interval) : Interval :=
  if a.isEmpty || b.isEmpty then empty
  else
    match a.mask?, b.mask? with
    | some m, some n => ofBounds (.finite 0) (min (.finite m) (.finite n))
    | some m, none => range 0 m
    | none, some n => range 0 n
    | none, none => top

/-- Arithmetic shift to the right by a known number of places from `0` to `63`. -/
def shiftRight (a amount : Interval) : Interval :=
  if a.isEmpty || amount.isEmpty then empty
  else
    match amount.low, amount.high with
    | .finite least, .finite most =>
      if least.toInt < 0 ∨ 63 < most.toInt then top
      else
        let (least, most) := (least.toInt.toNat, most.toInt.toNat)
        hull [a.low.shiftRight least, a.low.shiftRight most,
          a.high.shiftRight least, a.high.shiftRight most]
    | _, _ => top

def abs (a : Interval) : Interval :=
  if a.isEmpty then empty
  else if .finite 0 ≤ a.low then a
  else if a.high ≤ .finite 0 then a.neg
  else ofBounds (.finite 0) (max a.low.neg a.high)

/-- The lesser of a member of each. -/
def minimum (a b : Interval) : Interval :=
  if a.isEmpty || b.isEmpty then empty
  else ofBounds (min a.low b.low) (min a.high b.high)

/-- The greater of a member of each. -/
def maximum (a b : Interval) : Interval :=
  if a.isEmpty || b.isEmpty then empty
  else ofBounds (max a.low b.low) (max a.high b.high)

/-- The value raised to at least `lo`, then lowered to at most `hi`. -/
def clamp (a lo hi : Interval) : Interval := (a.maximum lo).minimum hi

/-- How often a loop counting from zero up to the value runs: a negative count runs it never. -/
def iterations (a : Interval) : Interval :=
  if a.isEmpty then empty else a.maximum (constant 0)

/-- How an interval is written: `[0, +inf]`, or `empty`. -/
def text (a : Interval) : String :=
  if a.isEmpty then "empty" else "[" ++ a.low.text ++ ", " ++ a.high.text ++ "]"

end Interval

end FlowSafety
