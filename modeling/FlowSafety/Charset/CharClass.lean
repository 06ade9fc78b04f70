import FlowSafety.Size

/-!
# Character classes

A `CharClass` says which characters a text may hold: one bit for every ASCII character, and a
summary of the characters beyond ASCII. The summary has three levels. `none` and `all` are exact;
`some` only says that a character beyond ASCII may occur, so taking a `some` from anything proves
nothing absent, and only taking `all` does.

`CharClass.contains` reads a class as a set of characters, and the set operations below
over-approximate the operations on these sets.
-/

namespace FlowSafety

/-- How much of the range beyond ASCII a class may hold. -/
inductive NonAscii where
  | none
  | some
  | all
deriving DecidableEq, Repr, Inhabited

namespace NonAscii

/-- The greater of two levels. -/
def union : NonAscii → NonAscii → NonAscii
  | .all, _ => .all
  | _, .all => .all
  | .some, _ => .some
  | _, .some => .some
  | .none, .none => .none

/-- The lesser of two levels. -/
def inter : NonAscii → NonAscii → NonAscii
  | .none, _ => .none
  | _, .none => .none
  | .some, _ => .some
  | _, .some => .some
  | .all, .all => .all

/-- What may be left of the first level without the second. -/
def diff : NonAscii → NonAscii → NonAscii
  | _, .all => .none
  | .none, _ => .none
  | .all, .none => .all
  | _, _ => .some

/-- How the summary is written at the end of a class. -/
def text : NonAscii → String
  | .none => ""
  | .some => "+some-non-ascii"
  | .all => "+non-ascii"

end NonAscii

/-- A set of characters: one bit for every ASCII character, and how much of the rest. -/
structure CharClass where
  ascii : BitVec 128
  nonAscii : NonAscii
deriving DecidableEq, Repr, Inhabited

namespace CharClass

/-! ## Membership -/

/-- Whether a text of this class may hold the character. -/
def contains (k : CharClass) (c : Char) : Bool :=
  if c.toNat < 128 then k.ascii.getLsbD c.toNat else k.nonAscii ≠ .none

/-- Whether a text of this class may hold a character beyond ASCII. -/
def hasNonAscii (k : CharClass) : Bool := k.nonAscii ≠ .none

def isEmpty (k : CharClass) : Bool := k.ascii = 0 ∧ k.nonAscii = .none

/-! ## Set operations -/

/-- No character. -/
def empty : CharClass := ⟨0, .none⟩

/-- Every character. -/
def any : CharClass := ⟨BitVec.allOnes 128, .all⟩

def union (a b : CharClass) : CharClass := ⟨a.ascii ||| b.ascii, a.nonAscii.union b.nonAscii⟩

def inter (a b : CharClass) : CharClass := ⟨a.ascii &&& b.ascii, a.nonAscii.inter b.nonAscii⟩

/-- What may be left of the first class without the second. -/
def diff (a b : CharClass) : CharClass := ⟨a.ascii &&& ~~~b.ascii, a.nonAscii.diff b.nonAscii⟩

def compl (a : CharClass) : CharClass := any.diff a

/-- Nothing is left of the first class without the second. -/
def isSubsetOf (a b : CharClass) : Bool := (a.diff b).isEmpty

def intersects (a b : CharClass) : Bool := !(a.inter b).isEmpty

def insert (k : CharClass) (c : Char) : CharClass :=
  if c.toNat < 128 then { k with ascii := k.ascii ||| BitVec.twoPow 128 c.toNat }
  else { k with nonAscii := k.nonAscii.union .some }

/-! ## Construction -/

/-- The class of the characters in a list. -/
def ofList (cs : List Char) : CharClass := cs.foldl insert empty

/-- The class of the characters of a text. -/
def ofText (s : String) : CharClass := ofList s.toList

/-- The ASCII characters whose code is in a range. -/
def asciiRange (lo hi : Nat) : BitVec 128 :=
  (BitVec.allOnes 128 <<< lo) &&& (BitVec.allOnes 128 >>> (127 - min hi 127))

/-- The number of characters beyond ASCII. -/
def nonAsciiCount : Nat := 0x10FFFF - 0x7F - 0x800

/-- The number of characters whose code is in a range; surrogate codes are no characters. -/
def countIn (lo hi : Nat) : Nat :=
  (hi + 1 - lo) - (min 0xDFFF hi + 1 - max 0xD800 lo)

/-- The number of characters beyond ASCII in a range. -/
def wideCount (range : Char × Char) : Nat := countIn (max range.1.toNat 128) range.2.toNat

/-- The class of some disjoint ranges. All of the characters beyond ASCII are in it if the ranges
count as many; inverted ranges are void. The count stops at the largest number of 32 bits. -/
def ofRanges (ranges : List (Char × Char)) : CharClass :=
  let wide := ranges.foldl (fun n r => min (n + wideCount r) Size.largestSmall) 0
  { ascii := ranges.foldl (fun bits r => bits ||| asciiRange r.1.toNat r.2.toNat) 0
    nonAscii := if wide = 0 then .none else if nonAsciiCount ≤ wide then .all else .some }

/-- The class of the characters from `lo` to `hi`. -/
def ofRange (lo hi : Char) : CharClass := ofRanges [(lo, hi)]

/-! ## Named classes -/

def digits : CharClass := ofRange '0' '9'

def hexDigits : CharClass := (digits.union (ofRange 'a' 'f')).union (ofRange 'A' 'F')

def asciiLetters : CharClass := (ofRange 'a' 'z').union (ofRange 'A' 'Z')

def alphanumeric : CharClass := asciiLetters.union digits

def word : CharClass := alphanumeric.union (ofText "_")

def whitespace : CharClass := ofText " \t\n\r\x0b\x0c"

/-- The standard and the URL-safe base64 alphabet, with padding. -/
def base64 : CharClass := alphanumeric.union (ofText "+/=-_")

/-- The characters that never need encoding in a URL. -/
def urlUnreserved : CharClass := alphanumeric.union (ofText "-._~")

/-! ## Case mapping -/

/-- The ASCII characters of a class, in order. -/
def asciiMembers (k : CharClass) : List Char :=
  ((List.range 128).map Char.ofNat).filter k.contains

/-- The ASCII letters of one case. -/
def letters (lower : Bool) : CharClass := if lower then ofRange 'a' 'z' else ofRange 'A' 'Z'

/-- The class after a mapping to lower or upper case. A character beyond ASCII may map to an ASCII
letter, such as the Kelvin sign to `k`, so it brings every letter of the target case with it. -/
def caseMapped (k : CharClass) (lower : Bool) : CharClass :=
  let mapped := ofList (k.asciiMembers.map fun c => if lower then c.toLower else c.toUpper)
  let wide := { mapped with nonAscii := k.nonAscii.inter .some }
  if k.hasNonAscii then wide.union (letters lower) else wide

/-! ## Text -/

/-- The maximal runs of consecutive codes in an ascending list, as first and last code. -/
def runs : List Nat → List (Nat × Nat)
  | [] => []
  | n :: ns =>
    match runs ns with
    | [] => [(n, n)]
    | (first, last) :: rest =>
      if first = n + 1 then (n, last) :: rest else (n, n) :: (first, last) :: rest

/-- One digit of a character code. -/
def upperHexDigit (n : Nat) : Char := if n < 10 then Char.ofNat (48 + n) else Char.ofNat (55 + n)

/-- A character as written in a class: a printable one as it is, any other by its code. -/
def memberText (n : Nat) : String :=
  if 32 ≤ n ∧ n < 127 then String.singleton (Char.ofNat n)
  else "\\x" ++ String.ofList [upperHexDigit (n / 16), upperHexDigit (n % 16)]

/-- A run as written in a class: three characters or more by first and last. -/
def runText (run : Nat × Nat) : String :=
  if run.1 = run.2 then memberText run.1
  else if run.1 + 1 = run.2 then memberText run.1 ++ memberText run.2
  else memberText run.1 ++ "-" ++ memberText run.2

/-- How a class is written: a bracket expression over its ASCII characters, then its summary. -/
def text (k : CharClass) : String :=
  if k = any then "[any]"
  else
    let members := runs (k.asciiMembers.map Char.toNat)
    "[" ++ String.join (members.map runText) ++ k.nonAscii.text ++ "]"

end CharClass

end FlowSafety
