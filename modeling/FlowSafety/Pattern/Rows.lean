import FlowSafety.Pattern.CodeSet

/-!
# Rows of bytes

A class of characters as rows, each with a range for every byte of an encoding. A sequence of bytes
is the encoding of a member if and only if it is in a row, byte by byte.
-/

namespace FlowSafety.Pattern

/-- A range of bytes, from the first to the last. -/
abbrev ByteRange := Nat × Nat

/-- The rows of the codes from `lo` to `hi`, given the number of bytes behind the first one and what
the first byte of code zero is. A byte behind the first carries six bits of the code. -/
def rowsFrom : Nat → Nat → Nat → Nat → List (List ByteRange)
  | 0, base, lo, hi => [[(base + lo, base + hi)]]
  | more + 1, base, lo, hi =>
    let width := Nat.pow 64 (more + 1)
    let a := lo / width
    let b := hi / width
    let rowsOf (lead lo hi : Nat) :=
      (rowsFrom more 0x80 lo hi).map ((base + lead, base + lead) :: ·)
    if a = b then rowsOf a (lo % width) (hi % width)
    else
      let startsWhole := lo % width = 0
      let endsWhole := hi % width + 1 = width
      let low := if startsWhole then [] else rowsOf a (lo % width) (width - 1)
      let high := if endsWhole then [] else rowsOf b 0 (hi % width)
      let first := if startsWhole then a else a + 1
      let stop := if endsWhole then b + 1 else b
      let middle :=
        if first < stop then
          [(base + first, base + (stop - 1)) :: List.replicate (more + 1) (0x80, 0xBF)]
        else []
      low ++ middle ++ high

/-- The codes whose encodings have one length, with the number of bytes behind the first and the
first byte of code zero. There are no characters at the surrogate codes. -/
def encodings : List (Nat × Nat × Nat × Nat) :=
  [(0x0, 0x7F, 0, 0x0), (0x80, 0x7FF, 1, 0xC0), (0x800, 0xD7FF, 2, 0xE0), (0xE000, 0xFFFF, 2, 0xE0),
    (0x10000, 0x10FFFF, 3, 0xF0)]

/-- The rows of the encodings of all members, ascending. -/
def CodeSet.rows (s : CodeSet) : List (List ByteRange) :=
  s.ranges.flatMap fun r => encodings.flatMap fun (least, greatest, more, base) =>
    let lo := max r.1 least
    let hi := min r.2 greatest
    if lo ≤ hi then rowsFrom more base lo hi else []

end FlowSafety.Pattern
