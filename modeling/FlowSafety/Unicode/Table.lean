/-!
# Tables of character codes

The tables of the Unicode standard are written as text. A number is a sequence of digits in base 32,
most significant first, and its last digit is marked: of the 64 digit symbols the first 32 stand for
a digit that others follow, the second 32 for one that ends its number. Sets of codes are sequences
of pairs, the gap after the range before and the length of the range less one.
-/

namespace FlowSafety.Unicode.Table

/-- The value of a digit symbol: decimal digits, upper case, lower case, `-` and `_`. -/
def symbolValue (c : Char) : Nat :=
  let n := c.toNat
  if 48 ≤ n ∧ n < 58 then n - 48
  else if 65 ≤ n ∧ n < 91 then n - 55
  else if 97 ≤ n ∧ n < 123 then n - 61
  else if n = 45 then 62
  else 63

/-- The numbers in a sequence of symbols; `value` is that of the digits of the first number that are
already read. -/
def numbersFrom (value : Nat) : List Char → List Nat
  | [] => []
  | c :: cs =>
    let digit := symbolValue c
    if digit < 32 then numbersFrom (32 * value + digit) cs
    else (32 * value + (digit - 32)) :: numbersFrom 0 cs

/-- The numbers in a text. -/
def numbers (s : String) : List Nat := numbersFrom 0 s.toList

/-- The numbers of a list, two by two. -/
def pairs : List Nat → List (Nat × Nat)
  | a :: b :: rest => (a, b) :: pairs rest
  | _ => []

/-- Gaps and lengths as ranges of codes, ascending from a code on. -/
def rangesFrom (start : Nat) : List (Nat × Nat) → List (Nat × Nat)
  | [] => []
  | (gap, more) :: rest =>
    (start + gap, start + gap + more) :: rangesFrom (start + gap + more + 1) rest

/-- The ranges of codes in a text, ascending and with gaps between them. -/
def ranges (s : String) : List (Nat × Nat) := rangesFrom 0 (pairs (numbers s))

/-- The parts of a range that lie outside some ascending ranges. -/
def outside (lo hi : Nat) : List (Nat × Nat) → List (Nat × Nat)
  | [] => if lo ≤ hi then [(lo, hi)] else []
  | (a, b) :: rest =>
    if b < lo then outside lo hi rest
    else if hi < a then if lo ≤ hi then [(lo, hi)] else []
    else (if lo < a then [(lo, a - 1)] else []) ++ outside (b + 1) hi rest

/-- The ranges of the first list without the codes in the second, which ascends. -/
def without (own removed : List (Nat × Nat)) : List (Nat × Nat) :=
  own.flatMap fun r => outside r.1 r.2 removed

/-- Whether a character lies in one of some ranges. -/
def isIn (ranges : Array (Nat × Nat)) (c : Char) : Bool :=
  ranges.any fun r => r.1 ≤ c.toNat && c.toNat ≤ r.2

/-! ## Rows -/

/-- The parts of a text between blanks. -/
def splitAtBlanks : List Char → List (List Char)
  | [] => [[]]
  | c :: cs =>
    match splitAtBlanks cs with
    | [] => [[]]
    | word :: words => if c = ' ' then [] :: word :: words else (c :: word) :: words

/-- The words of a text, which blanks separate. -/
def words (s : String) : List String := (splitAtBlanks s.toList).map String.ofList

/-- The ranges in the first row that has a name; a row is its names and the text of its ranges. -/
def rowRanges? (rows : List (String × String)) (name : String) : Option (List (Nat × Nat)) :=
  (rows.find? fun row => (words row.1).contains name).map fun row => ranges row.2

end FlowSafety.Unicode.Table
