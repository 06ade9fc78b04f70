import FlowSafety.Pattern.Core

/-!
# What matches begin with

The texts that the matches of a pattern begin with, as long as there are few of them and they are
short. Where each of them is a whole match the pattern is nothing but a set of texts, and these are
searched for without an automaton: `Core.isTextSet`.

The texts stand in the order of their preference, and adjacent equal ones are one. A set of texts
that can be shortened to few of some length, or to one byte that is not common, is searched for by
what it is shortened to, so it is not a set to stop at.
-/

namespace FlowSafety.Pattern

/-- A text that matches begin with. -/
structure Opening where
  bytes : List UInt8
  /-- It is the whole of a match, not only the beginning. -/
  whole : Bool
deriving DecidableEq, Repr

namespace Opening

/-- The beginning of no length, which is all that is taken so far. -/
def nothing : Opening := ⟨[], true⟩

/-- The first bytes of an opening. -/
def cut (n : Nat) (o : Opening) : Opening :=
  if n < o.bytes.length then ⟨o.bytes.take n, false⟩ else o

def notWhole (o : Opening) : Opening := { o with whole := false }

/-- Both in a row. -/
def followedBy (o p : Opening) : Opening := ⟨o.bytes ++ p.bytes, p.whole⟩

end Opening

/-! ## Limits -/

/-- The most members of a class that are told apart. -/
def maxMembers : Nat := 10

/-- The most times that a repetition is written out. -/
def maxCopies : Nat := 10

/-- The most bytes of an opening. -/
def maxOpening : Nat := 100

/-- The most openings. -/
def maxOpenings : Nat := 250

/-! ## Openings -/

/-- The openings of a pattern; none if there are too many, or any text is one. -/
abbrev Openings := Option (List Opening)

/-- Join adjacent openings of the same bytes. The joined one is whole if both are. -/
def joinEqual : List Opening → List Opening
  | [] => []
  | o :: os =>
    match joinEqual os with
    | p :: ps => if o.bytes = p.bytes then ⟨o.bytes, o.whole && p.whole⟩ :: ps else o :: p :: ps
    | [] => [o]

namespace Openings

def cut (n : Nat) (os : Openings) : Openings := os.map (·.map (Opening.cut n))

def notWhole (os : Openings) : Openings := os.map (·.map Opening.notWhole)

/-- No opening can be continued. -/
def isFinished (os : Openings) : Bool :=
  match os with
  | some os => os.all (!·.whole)
  | none => true

/-- Openings of one pattern or, if that does not match, of another. -/
def orElse (os ps : Openings) : Openings :=
  os.bind fun os => ps.bind fun ps =>
    if os.length + ps.length ≤ maxOpenings then some (joinEqual (os ++ ps))
    else
      let os := joinEqual (os.map (Opening.cut 4))
      let ps := joinEqual (ps.map (Opening.cut 4))
      if os.length + ps.length ≤ maxOpenings then some (joinEqual (os ++ ps)) else none

/-- Openings that may be continued by any text. -/
def openEnded (os : List Opening) : Openings :=
  if os.any (·.bytes.isEmpty) then none else some (os.map Opening.notWhole)

/-- Openings of two patterns in a row. -/
def followedBy (os ps : Openings) : Openings :=
  os.bind fun os =>
    cut maxOpening <|
      match ps with
      | none => openEnded os
      | some ps =>
        if os.length * ps.length ≤ maxOpenings then
          some (joinEqual (os.flatMap fun o => if o.whole then ps.map o.followedBy else [o]))
        else openEnded os

/-- Openings of so many copies of a pattern in a row. -/
def copies (ps : Openings) : Nat → Openings → Openings
  | 0, os => os
  | n + 1, os => if os.isFinished then os else copies ps n (os.followedBy ps)

/-- Openings of a repeated pattern. -/
def repeated (min : Nat) (max : Option Nat) (greedy : Bool) (os : Openings) : Openings :=
  if min = 0 then
    let os := if max = some 1 then os else os.notWhole
    let skipped : Openings := some [.nothing]
    if greedy then os.orElse skipped else skipped.orElse os
  else
    let written := copies os (Nat.min min maxCopies) (some [.nothing])
    if max = some min ∧ min ≤ maxCopies then written else written.notWhole

end Openings

/-- The openings of a set, if it has few members. -/
def CodeSet.openings (s : CodeSet) (domain : Domain) : Openings :=
  let members := s.ranges.foldl (fun n r => n + (r.2 + 1 - r.1)) 0
  if maxMembers < members then none
  else
    some <| s.ranges.flatMap fun r =>
      (List.range (r.2 + 1 - r.1)).map fun i => ⟨Core.bytesOf domain (r.1 + i), true⟩

mutual

/-- The openings of a pattern. -/
def Core.openings : Core → Openings
  | .empty => some [.nothing]
  | .literal bytes => Openings.cut maxOpening (some [⟨bytes, true⟩])
  | .set domain s => s.openings domain
  | .look _ => some [.nothing]
  | .repetition min max greedy sub => Openings.repeated min max greedy sub.openings
  | .capture _ sub => sub.openings
  | .concat items => openingsOfRow items (some [.nothing])
  | .alternation branches => openingsOfAny branches (some [])

/-- Openings that are continued by items in a row. -/
def openingsOfRow : List Core → Openings → Openings
  | [], os => os
  | item :: items, os =>
    if os.isFinished then os else openingsOfRow items (os.followedBy item.openings)

/-- Openings together with those of alternatives. -/
def openingsOfAny : List Core → Openings → Openings
  | [], os => os
  | branch :: branches, os =>
    match os with
    | some os => openingsOfAny branches (Openings.orElse (some os) branch.openings)
    | none => none

end

/-! ## The openings to search for -/

/-- Without those that begin with one in front of them. -/
def preferred (os : List Opening) : List Opening :=
  (os.foldl (fun kept o => if kept.any (·.bytes.isPrefixOf o.bytes) then kept else o :: kept) [])
    |>.reverse

/-- What all of some openings begin with. -/
def sharedOpening : List Opening → List UInt8
  | [] => []
  | o :: os => os.foldl (fun shared p => (shared.zip p.bytes).takeWhile (fun b => b.1 = b.2)
      |>.map (·.1)) o.bytes

/-- The ASCII characters that are common in texts, programs and data. -/
def commonChars : List Char := "\n\r (),-./0129:_abcdefghilmnoprstuvxy|".toList

/-- Whether a byte is common. Beyond ASCII those are that begin the encoding of a character. -/
def isCommonByte (b : UInt8) : Bool :=
  if b < 0x80 then commonChars.contains (Char.ofNat b.toNat) else 0xC0 ≤ b

/-- Shorten openings as long as there are more than the limit of a step: to how many bytes, and how
many may be left. -/
def shorten : List (Nat × Nat) → List Opening → List Opening
  | [], os => os
  | (n, limit) :: steps, os =>
    if os.length ≤ limit then os else shorten steps (preferred (os.map (Opening.cut n)))

/-- The steps in which openings are shortened. -/
def shortening : List (Nat × Nat) := [(5, 10), (4, 10), (3, 64), (2, 64), (1, 10)]

/-- Whether openings that are whole matches are searched for as they are. A few longer ones that
they can be shortened to are searched for instead. -/
def staysWhole (os : List Opening) : Bool :=
  let short := shorten shortening os
  short.any (·.bytes.length ≤ 2) || 64 < short.length || short.all (·.whole)

/-- Whether some openings are searched for without looking at what is behind them. -/
def areTextSet (os : List Opening) : Bool :=
  let kept := preferred os
  let shared := sharedOpening kept
  let startsRarely := shared.length ≤ 3 && shared.head?.any (!isCommonByte ·)
  let kept :=
    if 1 < os.length && startsRarely then joinEqual (kept.map (Opening.cut 1))
    else if 4 < shared.length || (1 < shared.length && 16 < kept.length) then
      joinEqual (kept.map (Opening.cut shared.length))
    else kept
  !os.isEmpty && os.all (!·.bytes.isEmpty) && kept.all (·.whole) && staysWhole kept

mutual

/-- There is neither a group nor an assertion in a pattern. -/
def Core.isPlain : Core → Bool
  | .look _ => false
  | .repetition _ _ _ sub => sub.isPlain
  | .capture _ _ => false
  | .concat items => arePlain items
  | .alternation branches => arePlain branches
  | _ => true

def arePlain : List Core → Bool
  | [] => true
  | item :: items => item.isPlain && arePlain items

end

/-- Whether a pattern is searched for as a set of texts. -/
def Core.isTextSet (h : Core) : Bool := h.isPlain && h.openings.any areTextSet

end FlowSafety.Pattern
