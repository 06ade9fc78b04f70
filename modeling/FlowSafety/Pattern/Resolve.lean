import FlowSafety.Pattern.Core
import FlowSafety.Pattern.Property

/-!
# Resolving patterns

What a written pattern matches, given the flags in force. A change of flags holds up to the end of
the group around it, across the branches of that group.

Patterns are read in one of two modes. In `Mode.unicode`, for searching texts, everything matches
whole characters, and a pattern that could match a part of one is refused. In `Mode.ascii`, for
reading what a check establishes, letters of classes and case mean ASCII and the rest is bytes.
-/

namespace FlowSafety.Pattern

/-- The flags in force at a place. -/
structure Flags where
  caseInsensitive : Bool := false
  multiLine : Bool := false
  dotMatchesLineEnd : Bool := false
  swapGreed : Bool := false
  unicode : Bool
  crlf : Bool := false
deriving DecidableEq, Repr

namespace Flags

def change (f : Flags) (c : FlagChange) : Flags :=
  { caseInsensitive := c.apply .caseInsensitive f.caseInsensitive
    multiLine := c.apply .multiLine f.multiLine
    dotMatchesLineEnd := c.apply .dotMatchesLineEnd f.dotMatchesLineEnd
    swapGreed := c.apply .swapGreed f.swapGreed
    unicode := c.apply .unicode f.unicode
    crlf := c.apply .crlf f.crlf }

/-- What classes are sets of. -/
def domain (f : Flags) : Domain := if f.unicode then .characters else .bytes

end Flags

/-- How a pattern is read. -/
inductive Mode where
  /-- Whole characters, with the meanings of Unicode. -/
  | unicode
  /-- Bytes, with the meanings of ASCII. -/
  | ascii
deriving DecidableEq, Repr

namespace Mode

/-- The flags that hold before a pattern changes any. -/
def flags : Mode → Flags
  | .unicode => { unicode := true }
  | .ascii => { unicode := false }

/-- Whether a set may stand in a pattern: parts of characters only where bytes are matched. -/
def allows (m : Mode) (d : Domain) (s : CodeSet) : Bool :=
  m = .ascii || d = .characters || s.isAscii

end Mode

/-! ## Sets -/

/-- Whether a literal is a byte that is no character of its own. -/
def Literal.isHighByte (l : Literal) : Bool := l.byte && 0x80 ≤ l.char.toNat

/-- The code of a literal in a class. Among bytes it has to be ASCII or written as a byte. -/
def Literal.code? (m : Mode) (f : Flags) (l : Literal) : Option Nat :=
  if f.unicode then some l.char.toNat
  else if l.char.toNat < 0x80 then some l.char.toNat
  else if l.byte && m = .ascii then some l.char.toNat
  else none

/-- A set under the flags: other cases join before it is turned around. -/
def finish? (m : Mode) (f : Flags) (negated : Bool) (s : CodeSet) : Option CodeSet :=
  let s := if f.caseInsensitive then s.foldCase f.domain else s
  let s := if negated then s.compl f.domain else s
  if m.allows f.domain s then some s else none

/-- The set of a class letter. It holds both cases already. -/
def letterSet? (m : Mode) (f : Flags) (kind : LetterClass) (negated : Bool) : Option CodeSet :=
  let s := if f.unicode then kind.characters else kind.ascii
  let s := if negated then s.compl f.domain else s
  if m.allows f.domain s then some s else none

/-- The set of a property query, which asks about characters. -/
def propertySet? (m : Mode) (f : Flags) (query : PropertyQuery) (negated : Bool) :
    Option CodeSet :=
  if f.unicode then query.set?.bind fun r => finish? m f (negated != r.2) r.1 else none

def ClassOp.apply (op : ClassOp) (d : Domain) (s t : CodeSet) : CodeSet :=
  match op with
  | .inter => s.inter t
  | .diff => s.diff d t
  | .symmDiff => s.symmDiff d t

mutual

/-- What the inside of a class stands for. An item that may have been turned around joins what is
read of the class so far, so that ranges which touch become one. -/
def classSet? (m : Mode) (f : Flags) : ClassSet → Option CodeSet
  | .empty => some .empty
  | .literal l => (l.code? m f).map fun n => ⟨[(n, n)]⟩
  | .range first last =>
    (first.code? m f).bind fun a => (last.code? m f).map fun b => ⟨[(a, b)]⟩
  | .named kind negated => (finish? m f negated kind.set).map .canonical
  | .property query negated => (propertySet? m f query negated).map .canonical
  | .letter kind negated => (letterSet? m f kind negated).map .canonical
  | .bracketed negated set =>
    ((classSet? m f set).bind (finish? m f negated)).map .canonical
  | .union items => (unionSet? m f items).map .ofRanges
  | .binary op left right =>
    (classSet? m f left).bind fun s => (classSet? m f right).map fun t =>
      if f.caseInsensitive then op.apply f.domain (s.foldCase f.domain) (t.foldCase f.domain)
      else op.apply f.domain s t

/-- The ranges of all items. -/
def unionSet? (m : Mode) (f : Flags) : List ClassSet → Option (List (Nat × Nat))
  | [] => some []
  | item :: items =>
    (classSet? m f item).bind fun s => (unionSet? m f items).map (s.ranges ++ ·)

end

/-! ## Leaves -/

/-- A literal; where case does not count it may be a class. -/
def literal? (m : Mode) (f : Flags) (l : Literal) : Option Core :=
  if !f.unicode && l.isHighByte then
    if m = .ascii then some (.literal [UInt8.ofNat l.char.toNat]) else none
  else
    let code := l.char.toNat
    if f.caseInsensitive && (f.unicode || code < 0x80) then
      some (.ofSet f.domain (CodeSet.foldCase f.domain ⟨[(code, code)]⟩))
    else some (.literal (String.utf8EncodeChar l.char))

/-- The line ends that a dot leaves out. -/
def lineEnds (f : Flags) : CodeSet :=
  if f.dotMatchesLineEnd then .empty
  else if f.crlf then .ofRanges [(10, 10), (13, 13)]
  else .ofRanges [(10, 10)]

def dot? (m : Mode) (f : Flags) : Option Core :=
  if m = .unicode && !f.unicode then none
  else some (.ofSet f.domain ((lineEnds f).compl f.domain))

def look (f : Flags) : Assertion → Look
  | .startLine => if f.multiLine then .lineStart f.crlf else .start
  | .endLine => if f.multiLine then .lineStop f.crlf else .stop
  | .startText => .start
  | .endText => .stop
  | .word condition => .word condition f.unicode

/-! ## Patterns -/

mutual

/-- What a pattern matches under some flags, and the flags in force behind it. -/
def resolve? (m : Mode) (f : Flags) : Ast → Option (Core × Flags)
  | .empty => some (.empty, f)
  | .flags change => some (.empty, f.change change)
  | .literal l => (literal? m f l).map fun h => (h, f)
  | .dot => (dot? m f).map fun h => (h, f)
  | .assertion a => some (.look (look f a), f)
  | .property query negated =>
    (propertySet? m f query negated).map fun s => (.ofSet f.domain s, f)
  | .letter kind negated => (letterSet? m f kind negated).map fun s => (.ofSet f.domain s, f)
  | .bracketed negated set =>
    ((classSet? m f set).bind (finish? m f negated)).map fun s => (.ofSet f.domain s, f)
  | .repetition min max greedy sub =>
    (resolve? m f sub).map fun (h, after) =>
      (.repeated min max (greedy != after.swapGreed) h, after)
  | .group (.capture index) sub => (resolve? m f sub).map fun (h, _) => (.capture index h, f)
  | .group (.plain change) sub => (resolve? m (f.change change) sub).map fun (h, _) => (h, f)
  | .alternation branches => (resolveAll? m f branches).map fun (hs, f) => (.oneOf hs, f)
  | .concat items => (resolveAll? m f items).map fun (hs, f) => (.inRow hs, f)

/-- What some patterns match, each under the flags that the one before it leaves. -/
def resolveAll? (m : Mode) (f : Flags) : List Ast → Option (List Core × Flags)
  | [] => some ([], f)
  | item :: items =>
    (resolve? m f item).bind fun (h, f) => (resolveAll? m f items).map fun (hs, f) => (h :: hs, f)

end

/-- What a pattern matches when it is read in a mode. -/
def meaning? (m : Mode) (ast : Ast) : Option Core := (resolve? m m.flags ast).map (·.1)

end FlowSafety.Pattern
