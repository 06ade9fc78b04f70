import FlowSafety.Unicode.Fold
import FlowSafety.Unicode.Table

/-!
# Sets of codes

A set of character codes or of byte values as a list of ranges. `CodeSet.ofRanges` brings any ranges
into the one form in which they ascend and do not touch; all operations answer in it.

What the least and the greatest code are and which codes follow each other is up to the `Domain`:
among characters the surrogate codes are missing.
-/

namespace FlowSafety.Pattern

/-- What a set of codes is a set of. -/
inductive Domain where
  | characters
  | bytes
deriving DecidableEq, Repr

namespace Domain

/-- The greatest code. -/
def last : Domain → Nat
  | characters => 0x10FFFF
  | bytes => 0xFF

/-- The code after another. -/
def next (d : Domain) (n : Nat) : Nat := if d = characters ∧ n = 0xD7FF then 0xE000 else n + 1

/-- The code before another. -/
def prev (d : Domain) (n : Nat) : Nat := if d = characters ∧ n = 0xE000 then 0xD7FF else n - 1

end Domain

/-- A set of codes by its ranges. -/
structure CodeSet where
  ranges : List (Nat × Nat)
deriving DecidableEq, Repr

namespace CodeSet

/-- Put an ascending range in front of ranges that start no earlier, joining those it touches. -/
def cons (lo hi : Nat) : List (Nat × Nat) → List (Nat × Nat)
  | [] => [(lo, hi)]
  | (a, b) :: rest => if a ≤ hi + 1 then cons lo (max hi b) rest else (lo, hi) :: (a, b) :: rest

/-- Join the ranges that touch, in a list ordered by where they start. -/
def joined : List (Nat × Nat) → List (Nat × Nat)
  | [] => []
  | (lo, hi) :: rest => cons lo hi (joined rest)

/-- The set of some ranges in any order. -/
def ofRanges (ranges : List (Nat × Nat)) : CodeSet :=
  ⟨joined (ranges.mergeSort fun a b => a.1 < b.1 || (a.1 == b.1 && a.2 ≤ b.2))⟩

/-- The set in the one form that all operations answer in. -/
def canonical (s : CodeSet) : CodeSet := ofRanges s.ranges

def empty : CodeSet := ⟨[]⟩

def isEmpty (s : CodeSet) : Bool := s.ranges.isEmpty

def contains (s : CodeSet) (n : Nat) : Bool := s.ranges.any fun r => r.1 ≤ n && n ≤ r.2

/-- No code is beyond ASCII. -/
def isAscii (s : CodeSet) : Bool := s.ranges.all fun r => r.2 ≤ 0x7F

/-- The only member. -/
def single? (s : CodeSet) : Option Nat :=
  match s.ranges with
  | [(lo, hi)] => if lo = hi then some lo else none
  | _ => none

/-! ## Operations -/

def union (s t : CodeSet) : CodeSet := ofRanges (s.ranges ++ t.ranges)

def inter (s t : CodeSet) : CodeSet :=
  ofRanges <| s.ranges.flatMap fun a => t.ranges.filterMap fun b =>
    if max a.1 b.1 ≤ min a.2 b.2 then some (max a.1 b.1, min a.2 b.2) else none

/-- The part of a range that its domain has. -/
def within (d : Domain) (r : Nat × Nat) : Option (Nat × Nat) :=
  match d with
  | .bytes => some r
  | .characters =>
    let lo := if 0xD800 ≤ r.1 ∧ r.1 ≤ 0xDFFF then 0xE000 else r.1
    let hi := if 0xD800 ≤ r.2 ∧ r.2 ≤ 0xDFFF then 0xD7FF else r.2
    if lo ≤ hi then some (lo, hi) else none

def diff (d : Domain) (s t : CodeSet) : CodeSet :=
  ofRanges ((Unicode.Table.without s.ranges t.ranges).filterMap (within d))

def symmDiff (d : Domain) (s t : CodeSet) : CodeSet := diff d (s.union t) (s.inter t)

/-- The range between two codes in either order. -/
def between (a b : Nat) : Nat × Nat := (min a b, max a b)

/-- The gaps after a range and between those that follow it. -/
def gapsAfter (d : Domain) (hi : Nat) : List (Nat × Nat) → List (Nat × Nat)
  | [] => if hi < d.last then [(d.next hi, d.last)] else []
  | (a, b) :: rest => between (d.next hi) (d.prev a) :: gapsAfter d b rest

/-- The codes that are not in the set. -/
def compl (d : Domain) (s : CodeSet) : CodeSet :=
  match s.ranges with
  | [] => ⟨[(0, d.last)]⟩
  | (lo, hi) :: rest => ⟨(if 0 < lo then [(0, d.prev lo)] else []) ++ gapsAfter d hi rest⟩

/-! ## Case -/

/-- The letters of one case, moved to the other by an offset. -/
def shiftedLetters (s : CodeSet) (first last : Nat) (move : Nat → Nat) : List (Nat × Nat) :=
  (s.inter ⟨[(first, last)]⟩).ranges.map fun r => (move r.1, move r.2)

/-- The set with every code that differs from a member only in case. Among bytes these are the ASCII
letters. -/
def foldCase (d : Domain) (s : CodeSet) : CodeSet :=
  match d with
  | .bytes =>
    ofRanges
      (s.ranges ++ s.shiftedLetters 65 90 (· + 32) ++ s.shiftedLetters 97 122 (· - 32))
  | .characters =>
    let touched := Unicode.Fold.orbits.filter fun orbit => orbit.any s.contains
    ofRanges (s.ranges ++ touched.flatMap fun orbit => orbit.map fun n => (n, n))

end CodeSet

end FlowSafety.Pattern
