import FlowSafety.Pattern.Extent
import FlowSafety.Pattern.Rows
import Std.Data.HashMap

/-!
# States that are shared

The states for the rows of a class, and those for alternatives that are literals. An automaton that
reads forward shares what rows end with, one that reads backward what they begin with; both share
what literals begin with in their direction.

A state for a row is found again by a hash, in a table in which a new state takes the place of any
other with the same slot. So how much is shared depends on the numbers of the states.
-/

namespace FlowSafety.Pattern

/-! ## Hashes -/

/-- The FNV-1a hash of nothing. -/
def hashStart : UInt64 := 14695981039346656037

/-- The FNV-1a hash of some numbers and one more. -/
def hashStep (h : UInt64) (n : Nat) : UInt64 := (h ^^^ n.toUInt64) * 1099511628211

/-! ## Sharing endings -/

/-- A way on for a range of bytes: the range, and the number of the state behind it. -/
abbrev Way := ByteRange × Nat

/-- The number of slots for states by their ways. -/
def endingSlots : Nat := 10000

/-- The slot of a state by its ways. -/
def endingSlot (ways : List Way) : Nat :=
  let step := fun h (way : Way) => hashStep (hashStep (hashStep h way.1.1) way.1.2) way.2
  (ways.foldl step hashStart).toNat % endingSlots

/-- An automaton that shares states with the same ways, and the states by slot. -/
structure Endings where
  extent : Extent
  slots : Std.HashMap Nat (List Way × Nat) := {}

/-- The number of a state with some ways, if its slot holds it. -/
def Endings.find? (ways : List Way) (s : Endings) : Option Nat :=
  s.slots[endingSlot ways]?.bind fun (held, number) => if held = ways then some number else none

/-- The number of the state with some ways, which is a new one unless it is found. -/
def Endings.state (ways : List Way) (s : Endings) : Nat × Endings :=
  match s.find? ways with
  | some number => (number, s)
  | none =>
    let number := s.extent.states
    (number,
      { extent := s.extent.add (wayCost * ways.length)
        slots := s.slots.insert (endingSlot ways) (ways, number) })

/-- A state to which rows may still add: its ways so far, last one first, and the range of the way
whose end is not known. -/
structure OpenState where
  ways : List Way := []
  last : ByteRange

/-- Complete the states of a path, deepest one first; what is behind it, or where it ends. -/
def closePath (target : Nat) : List OpenState → Endings → Nat × Endings
  | [], s => (target, s)
  | o :: deeper, s =>
    let (next, s) := closePath target deeper s
    s.state ((o.last, next) :: o.ways).reverse

/-- Add a row behind the one whose path is given. The states that the rows do not have in common are
completed. -/
def addRow (target : Nat) : List OpenState → List ByteRange → Endings → List OpenState × Endings
  | o :: deeper, r :: row, s =>
    if o.last = r then
      let (deeper, s) := addRow target deeper row s
      (o :: deeper, s)
    else
      let (next, s) := closePath target deeper s
      ({ ways := (o.last, next) :: o.ways, last := r } :: row.map fun r => { last := r }, s)
  | [], row, s => (row.map fun r => { last := r }, s)
  | path, [], s => (path, s)

/-- The extent after the states of some rows that share their endings, and the one at which all of
them end. -/
def endingStates (rows : List (List ByteRange)) (e : Extent) : Extent :=
  let target := e.states
  let step := fun (path, s) row => addRow target path row s
  let (path, s) := rows.foldl step ([], ⟨e.add 0, {}⟩)
  (closePath target path s).2.extent

/-! ## Sharing beginnings -/

/-- The number of slots for states by their range and what follows them. -/
def beginningSlots : Nat := 1000

/-- An automaton that shares states with the same range and the same state behind them, and the
states by slot. -/
structure Beginnings where
  extent : Extent
  slots : Std.HashMap Nat ((Nat × ByteRange) × Nat) := {}

/-- The slot of a state by its range and the state behind it. -/
def beginningSlot (range : ByteRange) (next : Nat) : Nat :=
  (hashStep (hashStep (hashStep hashStart next) range.1) range.2).toNat % beginningSlots

/-- The number of a state for a range with the given one behind it, if its slot holds it. -/
def Beginnings.find? (range : ByteRange) (next : Nat) (s : Beginnings) : Option Nat :=
  s.slots[beginningSlot range next]?.bind fun (held, number) =>
    if held = (next, range) then some number else none

/-- The number of the state for a range with the given one behind it, which is a new one unless it
is found. -/
def Beginnings.state (range : ByteRange) (next : Nat) (s : Beginnings) : Nat × Beginnings :=
  match s.find? range next with
  | some number => (number, s)
  | none =>
    let number := s.extent.states
    (number,
      { extent := s.extent.add 0
        slots := s.slots.insert (beginningSlot range next) ((next, range), number) })

/-- The extent after the states of some rows that share their beginnings: one at which all of them
start, one at which all of them end, and the rows from the end on. -/
def beginningStates (rows : List (List ByteRange)) (e : Extent) : Extent :=
  let e := e.add (branchCost * rows.length)
  let target := e.states
  let addRange := fun (next, s) range => Beginnings.state range next s
  let step := fun (s : Beginnings) row => (row.foldl addRange (target, s)).2
  (rows.foldl step ⟨e.add 0, {}⟩).extent

/-! ## Alternatives of literals -/

/-- The first bytes of some texts. -/
def firstBytes (texts : List (List UInt8)) : List UInt8 := (texts.filterMap List.head?).eraseDups

/-- What follows a byte in the texts that begin with it. -/
def behind (b : UInt8) : List (List UInt8) → List (List UInt8)
  | [] => []
  | (c :: text) :: texts => if c = b then text :: behind b texts else behind b texts
  | [] :: texts => behind b texts

/-- The groups of texts between the empty ones. -/
def groups : List (List UInt8) → List (List (List UInt8))
  | [] => [[]]
  | [] :: texts => [] :: groups texts
  | text :: texts =>
    match groups texts with
    | group :: more => (text :: group) :: more
    | [] => [[text]]

/-- The number of times that a state with some texts behind it says that a literal ends there.
Before anything else it does so once at most. -/
def endCount (texts : List (List UInt8)) : Nat :=
  let rest := texts.dropWhile List.isEmpty
  (if rest.length < texts.length then 1 else 0) + (rest.filter List.isEmpty).length

/-- The states for some texts that share their beginnings, in the order of their preference; `depth`
is more than the length of any. A text ends with a group: what comes behind it must not be tried
before it. -/
def literalStates : Nat → List (List UInt8) → Extent
  | 0, _ => {}
  | depth + 1, texts =>
    let sections := (groups texts).filter (!·.isEmpty)
    let states := sections.map fun group =>
      let firsts := firstBytes group
      let deeper := (firsts.map (behind · group)).filter (·.any (!·.isEmpty))
      let ways := if firsts.length = 1 then 0 else wayCost * firsts.length
      (deeper.map (literalStates depth)).foldl .plus (Extent.add ways {})
    states.foldl .plus (Extent.add (branchCost * (sections.length + endCount texts)) {})

end FlowSafety.Pattern
