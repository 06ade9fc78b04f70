import FlowSafety.Pattern.Opening
import FlowSafety.Pattern.Sharing

/-!
# What a pattern costs

A pattern is searched for by two automata over bytes: one reads a text forward, the other backward.
Counted repetitions are written out in both, so a short pattern can need much memory. `Core.fits`
says whether each of them stays within `maxMemory`, or the pattern is searched for without them.

A `Plan` lists the states of an automaton in the order in which they are added, as far as that bears
on their number.
-/

namespace FlowSafety.Pattern

/-- The way in which an automaton reads a text. -/
inductive Direction where
  | forward
  | backward
deriving DecidableEq, Repr

/-! ## Plans -/

/-- The states of an automaton or a part of it, in the order in which they are added. -/
inductive Plan where
  /-- States whose number does not depend on what comes before them. -/
  | fixed (states : Extent)
  /-- The states of a class beyond ASCII. -/
  | shared (rows : List (List ByteRange))
  | row (parts : List Plan)
  | copies (count : Nat) (part : Plan)

namespace Plan

/-- A state without lists. -/
def plain : Plan := .fixed ⟨1, 0⟩

/-- A state with so many ways on that take no byte. -/
def fork (branches : Nat) : Plan := .fixed ⟨1, branchCost * branches⟩

/-- A part that may be left out. -/
def optional (part : Plan) : Plan := .row [fork 2, part]

/-- A class in which every member is one byte. -/
def bytes (s : CodeSet) : Plan := .fixed ⟨2, wayCost * s.ranges.length⟩

mutual

/-- The extent after the states of a plan, as long as it is within the limit. -/
def extent? (d : Direction) : Plan → Extent → Option Extent
  | .fixed states, e => (e.plus states).checked
  | .shared rows, e =>
    match d with
    | .forward => (endingStates rows e).checked
    | .backward => (beginningStates rows e).checked
  | .row parts, e => extentOfAll? d parts e
  | .copies count part, e => Extent.repeated (fun e => part.extent? d e) count e

def extentOfAll? (d : Direction) : List Plan → Extent → Option Extent
  | [], e => some e
  | part :: parts, e =>
    match part.extent? d e with
    | some e => extentOfAll? d parts e
    | none => none

end

end Plan

/-! ## Patterns -/

/-- The states of alternatives that are literals: those for the texts, and one at which all end. -/
def choiceStates (texts : List (List UInt8)) (d : Direction) : Extent :=
  let texts := if d = .forward then texts else texts.map List.reverse
  let depth := (texts.map List.length).foldl max 0
  Extent.add 0 (literalStates (depth + 1) texts)

mutual

/-- The plan of a pattern. Only the forward automaton takes note of groups. -/
def Core.plan (d : Direction) : Core → Plan
  | .empty => .plain
  | .literal bytes => .fixed ⟨bytes.length, 0⟩
  | .set domain s => if domain = .bytes ∨ s.isAscii then .bytes s else .shared s.rows
  | .look _ => .plain
  | .repetition least most _ sub =>
    let part := sub.plan d
    match most with
    | some most =>
      if least = 0 ∧ most = 1 then .row [.optional part, .plain]
      else
        let start := if least = 0 then .plain else .copies least part
        if least < most then .row [start, .plain, .copies (most - least) (.optional part)]
        else start
    | none =>
      if 0 < least then .row [.copies least part, .fork 2]
      else if sub.alwaysTakesByte then .optional part
      else .row [part, .fork 2, .fork 2, .plain]
  | .capture _ sub =>
    match d with
    | .forward => .row [.plain, sub.plan d, .plain]
    | .backward => sub.plan d
  | .concat items =>
    match d with
    | .forward => .row (plans d items)
    | .backward => .row (plans d items).reverse
  | .alternation branches =>
    match Core.each? Core.literal? branches with
    | some texts => .fixed (choiceStates texts d)
    | none =>
      let parts := plans d branches
      .row (parts.take 2 ++ [.fork parts.length, .plain] ++ parts.drop 2)

def plans (d : Direction) : List Core → List Plan
  | [] => []
  | item :: items => item.plan d :: plans d items

end

/-- Whether the automaton can only start at an end of the text. -/
def Core.isAnchored (d : Direction) (h : Core) : Bool :=
  match d with
  | .forward => h.startsWith .start
  | .backward => h.endsWith .stop

/-- The plan of an automaton. Unless it is anchored it may skip any bytes first; a group is around
the whole pattern, and behind it is the state of a match. -/
def Core.automaton (d : Direction) (h : Core) : Plan :=
  let skip := if h.isAnchored d then .plain else .optional (.fixed ⟨2, wayCost⟩)
  .row [skip, (Core.capture 0 h).plan d, .plain]

/-- So many alternatives that are all literals are searched for without an automaton. -/
def manyLiterals : Nat := 3000

/-- Whether a pattern is nothing but many alternatives that are literals. -/
def Core.isWordList : Core → Bool
  | .alternation branches =>
    manyLiterals ≤ branches.length && (Core.each? Core.literal? branches).isSome
  | _ => false

/-- Whether an automaton stays within the limit. -/
def Core.isWithin (d : Direction) (h : Core) : Bool := ((h.automaton d).extent? d {}).isSome

/-- Whether a pattern can be searched for: both automata stay within the limit, or none is needed. -/
def Core.fits (h : Core) : Bool :=
  h.isWithin .forward && h.isWithin .backward || h.isWordList || h.isTextSet

end FlowSafety.Pattern
