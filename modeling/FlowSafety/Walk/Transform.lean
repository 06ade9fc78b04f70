import FlowSafety.Catalogue.Text

/-!
# String transforms on values

What a transform makes of what is known about a text. Literal text is written by a developer and not
tainted, so it only adds length; every other piece brings its charset along.
-/

namespace FlowSafety

/-- An argument of a string transform whose value is known. -/
inductive Piece where
  | current
  | literal (text : String)
  | int (value : Int64)
  | value (value : Value)

namespace Piece

def int? : Piece → Option Int64
  | .int v => some v
  | _ => none

def isInt (p : Piece) : Bool := p.int?.isSome

def isCurrent : Piece → Bool
  | .current => true
  | _ => false

/-- Whether the piece is joined to the flowing text. -/
def isJoined : Piece → Bool
  | .literal _ => true
  | .value _ => true
  | _ => false

end Piece

namespace TextGuarantee

/-! ## Cutting -/

/-- The length of a cut: the one that the transform itself has, or the distance of the first two
integer arguments where they make sense as a beginning and an end. -/
def cutLength? (truncate : Option Nat) (ints : List Int64) : Option Nat :=
  match truncate, ints with
  | some n, _ => some n
  | none, first :: last :: _ =>
    if 0 ≤ first.toInt ∧ first.toInt ≤ last.toInt then some (last.toInt - first.toInt).toNat
    else none
  | none, _ => none

/-- The text after the cut, if there is one. A cut counts from the front, wherever it begins, and
without two places the values stay as they are. -/
def cut (g : TextGuarantee) (truncate : Option Nat) (ints : List Int64) : TextGuarantee :=
  match cutLength? truncate ints with
  | some n => g.truncate n
  | none => g

/-! ## Joining -/

/-- A concatenation up to a point: the tainted parts joined, and the literals before and behind
them. -/
structure Joint where
  tainted : Option TextGuarantee := none
  before : List String := []
  behind : List String := []

namespace Joint

/-- Join another tainted part. -/
def join (j : Joint) (g : TextGuarantee) : Joint :=
  match j.tainted with
  | none => { j with tainted := some g }
  | some h => { j with tainted := some (h.concat g) }

/-- Join a piece. Literals up to the first tainted part stand before it, all others behind. -/
def add (current : TextGuarantee) (j : Joint) : Piece → Joint
  | .current => j.join current
  | .value (.text g) => j.join g
  | .value (.integer iv) => j.join (ofInteger iv 10)
  | .literal s =>
    if j.tainted.isNone then { j with before := j.before ++ [s] }
    else { j with behind := j.behind ++ [s] }
  | .int _ => j

/-- The guarantee of the whole concatenation. -/
def result (j : Joint) (fallback : TextGuarantee) : TextGuarantee :=
  let inner := j.before.reverse.foldl prepend (j.tainted.getD fallback)
  j.behind.foldl append inner

end Joint

/-- The pieces of a concatenation in order. Without a place of its own the flowing text is first. -/
def inOrder (pieces : List Piece) : List Piece :=
  let joined := pieces.filter (!·.isInt)
  if pieces.any Piece.isCurrent then joined else .current :: joined

/-- Cutting and joining. -/
def passThrough (g : TextGuarantee) (truncate : Option Nat) (pieces : List Piece) :
    TextGuarantee :=
  let value := g.cut truncate (pieces.filterMap Piece.int?)
  if pieces.any Piece.isJoined then
    ((inOrder pieces).foldl (Joint.add value) {}).result value
  else value

/-! ## Masking -/

/-- All but the last `kept` characters replaced. -/
def mask (g : TextGuarantee) (kept : Nat) (filler : Char) : TextGuarantee :=
  let chars := CharClass.empty.insert filler
  { charset := if 0 < kept then .masked chars none kept g.charset else .format chars none
    maxLength := g.maxLength }

end TextGuarantee

namespace TextEffect

/-- The number of characters that a mask keeps: the first integer argument, if it can be one. -/
def keptBy (kept : Nat) (pieces : List Piece) : Nat :=
  match pieces.filterMap Piece.int? with
  | v :: _ => if 0 ≤ v.toInt then v.toInt.toNat else kept
  | [] => kept

/-- The guarantee after a transform of a text. -/
def onText (name : String) (effect : TextEffect) (pieces : List Piece) (g : TextGuarantee) :
    Except PathFault TextGuarantee :=
  match effect with
  | .escape context =>
    .ok
      { charset := .escaped context
        maxLength := g.maxLength.bind fun n => Size.checked (n * context.maxExpansion) }
  | .allowList values => .ok (.oneOf values)
  | .digitFilter => .ok { charset := .digits, maxLength := g.maxLength }
  | .mask kept filler => .ok (g.mask (keptBy kept pieces) filler)
  | .digest .hex length => .ok { charset := .hexDigits, maxLength := some length }
  | .digest .base64 length => .ok { charset := .base64, maxLength := some length }
  | .passThrough truncate => .ok (g.passThrough truncate pieces)
  | .caseMap lower => .ok (g.caseMapped lower)
  | .custom f => .ok (f g)
  | .numericFormat _ => .error (.formatOnText name)

/-- The guarantee after a transform of a value. Only a format applies to an integer. -/
def evaluate (name : String) (effect : TextEffect) (pieces : List Piece) :
    Value → Except PathFault TextGuarantee
  | .text g => effect.onText name pieces g
  | .integer iv =>
    match effect with
    | .numericFormat radix => .ok (.ofInteger iv radix)
    | _ => .error (.stringOnInteger name)

end TextEffect

end FlowSafety
