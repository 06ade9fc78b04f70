import FlowSafety.Pattern.Cost
import FlowSafety.Pattern.Reader
import FlowSafety.Pattern.Resolve

/-!
# Searching texts

Whether a pattern matches somewhere in a text. A pattern takes a set of positions to the set of
positions at which a match that starts in the first can stop, so no order of alternatives and no
greed comes into it. A position is the number of characters in front of it.
-/

namespace FlowSafety.Pattern

/-! ## Assertions -/

/-- A word character, of Unicode or of ASCII. -/
def isWordChar (unicode : Bool) (c : Char) : Bool :=
  if unicode then Unicode.isWord c else c.isAlphanum || c = '_'

/-- Whether the character before or behind a position is a word character. -/
def touchesWord (unicode : Bool) (c : Option Char) : Bool :=
  match c with
  | some c => isWordChar unicode c
  | none => false

/-- A condition on whether word characters stand before and behind a position. -/
def WordCondition.holds (before behind : Bool) : WordCondition → Bool
  | .boundary => before != behind
  | .notBoundary => before == behind
  | .start => !before && behind
  | .stop => before && !behind
  | .startHalf => !before
  | .stopHalf => !behind

/-- Whether an assertion holds between two characters of a text. -/
def Look.holdsBetween (before behind : Option Char) : Look → Bool
  | .start => before.isNone
  | .stop => behind.isNone
  | .lineStart false => before.isNone || before = some '\n'
  | .lineStop false => behind.isNone || behind = some '\n'
  | .lineStart true =>
    before.isNone || before = some '\n' || (before = some '\r' && behind ≠ some '\n')
  | .lineStop true =>
    behind.isNone || behind = some '\r' || (behind = some '\n' && before ≠ some '\r')
  | .word condition unicode =>
    condition.holds (touchesWord unicode before) (touchesWord unicode behind)

/-- Whether an assertion holds at a position. -/
def Look.holdsAt (text : Array Char) (i : Nat) (l : Look) : Bool :=
  l.holdsBetween (if i = 0 then none else text[i - 1]?) text[i]?

/-! ## Leaves -/

/-- The number of characters at the front of a text that some bytes are the encoding of. -/
def takenBy : List UInt8 → List Char → Option Nat
  | [], _ => some 0
  | _, [] => none
  | b :: bytes, c :: cs =>
    let encoded := String.utf8EncodeChar c
    if encoded.isPrefixOf (b :: bytes) then
      (takenBy ((b :: bytes).drop encoded.length) cs).map (· + 1)
    else none
termination_by _ cs => cs.length

/-- Whether a character is a member of a set; of its bytes only ASCII is one on its own. -/
def isMember (domain : Domain) (s : CodeSet) (c : Char) : Bool :=
  s.contains c.toNat && (domain = .characters || c.toNat < 0x80)

/-! ## Sets of positions -/

/-- The positions of both lists, those of the first one first. -/
def merged (ps qs : List Nat) : List Nat := ps ++ qs.filter (!ps.contains ·)

/-- Without repetitions. -/
def distinct (ps : List Nat) : List Nat := ps.foldl (fun seen p => merged seen [p]) []

/-- A step taken so many times. -/
def times (step : List Nat → List Nat) : Nat → List Nat → List Nat
  | 0, ps => ps
  | n + 1, ps => if ps.isEmpty then [] else times step n (step ps)

/-- Positions together with those that up to so many steps lead to; `fresh` are the ones from which
no step has been taken. -/
def upTo (step : List Nat → List Nat) : Nat → List Nat → List Nat → List Nat
  | 0, _, all => all
  | n + 1, fresh, all =>
    let new := (step fresh).filter (!all.contains ·)
    if new.isEmpty then all else upTo step n new (all ++ new)

mutual

/-- Where the matches that start at some positions can stop. -/
def Core.stops (text : Array Char) : Core → List Nat → List Nat
  | .empty, ps => ps
  | .literal bytes, ps =>
    ps.filterMap fun i => (takenBy bytes (text.toList.drop i)).map (i + ·)
  | .set domain s, ps =>
    ps.filterMap fun i => text[i]?.bind fun c => if isMember domain s c then some (i + 1) else none
  | .look l, ps => ps.filter fun i => l.holdsAt text i
  | .repetition min max _ sub, ps =>
    let least := times (fun ps => sub.stops text ps) min ps
    let more := match max with
      | some m => m - min
      | none => text.size + 1
    upTo (fun ps => sub.stops text ps) more least least
  | .capture _ sub, ps => sub.stops text ps
  | .concat items, ps => stopsOfRow text items ps
  | .alternation branches, ps => stopsOfAny text branches ps

def stopsOfRow (text : Array Char) : List Core → List Nat → List Nat
  | [], ps => ps
  | item :: items, ps => stopsOfRow text items (distinct (item.stops text ps))

def stopsOfAny (text : Array Char) : List Core → List Nat → List Nat
  | [], _ => []
  | branch :: branches, ps => merged (distinct (branch.stops text ps)) (stopsOfAny text branches ps)

end

/-- Whether a pattern matches somewhere in a text. -/
def Core.isFoundIn (h : Core) (s : String) : Bool :=
  let text := s.toList.toArray
  !(h.stops text (List.range (text.size + 1))).isEmpty

/-! ## Patterns that can be searched for -/

/-- The pattern to search for; none if it is malformed, could match a part of a character, or takes
too much memory. -/
def searcher? (pattern : String) : Option Core :=
  (parse? pattern).bind fun ast => (meaning? .unicode ast).bind fun h =>
    if h.fits then some h else none

/-- Whether a text can be searched for the pattern. -/
def isValid (pattern : String) : Bool := (searcher? pattern).isSome

end FlowSafety.Pattern
