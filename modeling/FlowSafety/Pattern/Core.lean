import FlowSafety.Pattern.CodeSet
import FlowSafety.Pattern.Syntax
import FlowSafety.Size

/-!
# Patterns by what they match

A pattern in which flags are resolved and classes are sets. Texts are matched as bytes: a literal is
a sequence of bytes, a class of characters takes the bytes of one character, a class of bytes takes
one byte, and an assertion takes none.

`Core.ofSet`, `Core.repeated`, `Core.inRow` and `Core.oneOf` build patterns in a simple form: what
cannot take a byte is not repeated, adjacent literals are one, alternatives of single characters are
a class, and what all alternatives begin with stands in front of them. `maxLength`, `startsWith` and
`endsWith` read a pattern in this form.
-/

namespace FlowSafety.Pattern

/-- An assertion about a position, with the flags that bear on it resolved. -/
inductive Look where
  | start
  | stop
  | lineStart (crlf : Bool)
  | lineStop (crlf : Bool)
  | word (condition : WordCondition) (unicode : Bool)
deriving DecidableEq, Repr

/-- A pattern by what it matches. -/
inductive Core where
  | empty
  | literal (bytes : List UInt8)
  | set (domain : Domain) (members : CodeSet)
  | look (l : Look)
  | repetition (min : Nat) (max : Option Nat) (greedy : Bool) (sub : Core)
  | capture (index : Nat) (sub : Core)
  | concat (items : List Core)
  | alternation (branches : List Core)
deriving Inhabited

namespace Core

mutual

/-- Whether two patterns are the same. -/
def same : Core → Core → Bool
  | .empty, .empty => true
  | .literal a, .literal b => a == b
  | .set d s, .set e t => d == e && s == t
  | .look l, .look l' => l == l'
  | .repetition min max greedy sub, .repetition min' max' greedy' sub' =>
    min == min' && max == max' && greedy == greedy' && same sub sub'
  | .capture index sub, .capture index' sub' => index == index' && same sub sub'
  | .concat items, .concat items' => sameAll items items'
  | .alternation branches, .alternation branches' => sameAll branches branches'
  | _, _ => false

def sameAll : List Core → List Core → Bool
  | [], [] => true
  | h :: hs, h' :: hs' => same h h' && sameAll hs hs'
  | _, _ => false

end

instance : BEq Core := ⟨same⟩

/-- The number of parts of a pattern. -/
def size : Core → Nat
  | .repetition _ _ _ sub => sub.size + 1
  | .capture _ sub => sub.size + 1
  | .concat items => sizeOfItems items + 1
  | .alternation branches => sizeOfItems branches + 1
  | _ => 1
where
  sizeOfItems : List Core → Nat
    | [] => 0
    | item :: items => size item + sizeOfItems items

/-! ## Length -/

/-- The number of bytes of a character. -/
def utf8Length (code : Nat) : Nat :=
  if code < 0x80 then 1 else if code < 0x800 then 2 else if code < 0x10000 then 3 else 4

/-- The most bytes that a member of a set takes; unknown for the empty set. -/
def setLength (domain : Domain) (s : CodeSet) : Option Nat :=
  s.ranges.getLast?.map fun r =>
    match domain with
    | .characters => utf8Length r.2
    | .bytes => 1

/-- The greater of two bounds; unknown if one is. -/
def maxOf (a b : Option Nat) : Option Nat :=
  a.bind fun m => b.map fun n => max m n

mutual

/-- The most bytes that a match takes; unknown if there is no bound, or none of 64 bits. -/
def maxLength : Core → Option Nat
  | .empty => some 0
  | .literal bytes => some bytes.length
  | .set domain s => setLength domain s
  | .look _ => some 0
  | .repetition _ max _ sub =>
    max.bind fun n => sub.maxLength.bind fun m => Size.checked (m * n)
  | .capture _ sub => sub.maxLength
  | .concat items => totalLength items
  | .alternation branches => greatestLength branches

def totalLength : List Core → Option Nat
  | [] => some 0
  | item :: items =>
    item.maxLength.bind fun m => (totalLength items).bind fun n =>
      Size.checked (m + n)

def greatestLength : List Core → Option Nat
  | [] => none
  | [branch] => branch.maxLength
  | branch :: branches => maxOf branch.maxLength (greatestLength branches)

end

mutual

/-- The fewest bytes that a match takes; unknown if a part of the pattern matches nothing. -/
def minLength : Core → Option Nat
  | .empty => some 0
  | .literal bytes => some bytes.length
  | .set domain s =>
    s.ranges.head?.map fun r => if domain = .characters then utf8Length r.1 else 1
  | .look _ => some 0
  | .repetition min _ _ sub => sub.minLength.map (min * ·)
  | .capture _ sub => sub.minLength
  | .concat items => minTotalLength items
  | .alternation branches => leastLength branches

def minTotalLength : List Core → Option Nat
  | [] => some 0
  | item :: items => item.minLength.bind fun m => (minTotalLength items).map (m + ·)

def leastLength : List Core → Option Nat
  | [] => none
  | [branch] => branch.minLength
  | branch :: branches => branch.minLength.bind fun m => (leastLength branches).map (min m)

end

/-- Whether a match takes at least one byte, as far as the form shows it. -/
def alwaysTakesByte (h : Core) : Bool :=
  match h.minLength with
  | some n => 0 < n
  | none => false

/-! ## Construction -/

/-- The pattern that matches nothing. -/
def fail : Core := .set .bytes .empty

/-- The bytes of a code in a domain. -/
def bytesOf (domain : Domain) (code : Nat) : List UInt8 :=
  match domain with
  | .characters => String.utf8EncodeChar (Char.ofNat code)
  | .bytes => [UInt8.ofNat code]

/-- The pattern of one member of a set: a class, or a literal if there is only one. -/
def ofSet (domain : Domain) (s : CodeSet) : Core :=
  if s.isEmpty then fail
  else
    match s.single? with
    | some code => .literal (bytesOf domain code)
    | none => .set domain s

/-- A repeated pattern. What takes no byte is repeated once at most. -/
def repeated (min : Nat) (max : Option Nat) (greedy : Bool) (sub : Core) : Core :=
  let (min, max) :=
    if sub.maxLength = some 0 then (Nat.min min 1, some ((max.map (Nat.min · 1)).getD 1))
    else (min, max)
  if min = 0 ∧ max = some 0 then .empty
  else if min = 1 ∧ max = some 1 then sub
  else .repetition min max greedy sub

/-- Put an item in front of others, joining literals. -/
def prepend (item : Core) (items : List Core) : List Core :=
  match item, items with
  | .empty, items => items
  | .literal a, .literal b :: items => .literal (a ++ b) :: items
  | item, items => item :: items

/-- The items of a pattern in a row. -/
def itemsOf : Core → List Core
  | .concat items => items
  | h => [h]

/-- Some patterns in a row. -/
def inRow (items : List Core) : Core :=
  match (items.flatMap itemsOf).foldr prepend [] with
  | [] => .empty
  | [item] => item
  | items => .concat items

/-- The branches of a pattern. -/
def branchesOf : Core → List Core
  | .alternation branches => branches
  | h => [h]

/-- The bytes of a literal. -/
def literal? : Core → Option (List UInt8)
  | .literal bytes => some bytes
  | _ => none

/-- The code of a literal of one character. -/
def singleChar? : Core → Option Nat
  | .literal bytes =>
    match (String.fromUTF8? ⟨bytes.toArray⟩).map String.toList with
    | some [c] => some c.toNat
    | _ => none
  | _ => none

/-- The value of a literal of one byte. -/
def singleByte? : Core → Option Nat
  | .literal [b] => some b.toNat
  | _ => none

/-- The set of a class, if it is one of characters or reads the same as one. -/
def characterSet? : Core → Option CodeSet
  | .set .characters s => some s
  | .set .bytes s => if s.isAscii then some s else none
  | _ => none

/-- The set of a class, if it is one of bytes or reads the same as one. -/
def byteSet? : Core → Option CodeSet
  | .set .bytes s => some s
  | .set .characters s => if s.isAscii then some s else none
  | _ => none

/-- The values of all members of a list, if each has one. -/
def each? {α β : Type} (f : α → Option β) : List α → Option (List β)
  | [] => some []
  | a :: as => (f a).bind fun b => (each? f as).map (b :: ·)

/-- The set of some codes. -/
def codes (ns : List Nat) : CodeSet := .ofRanges (ns.map fun n => (n, n))

def unionOf (sets : List CodeSet) : CodeSet := .ofRanges (sets.flatMap CodeSet.ranges)

/-- The class that some branches amount to. -/
def classOf? (branches : List Core) : Option Core :=
  ((each? singleChar? branches).map fun ns => ofSet .characters (codes ns)).or <|
  ((each? singleByte? branches).map fun ns => ofSet .bytes (codes ns)).or <|
  ((each? characterSet? branches).map fun ss => ofSet .characters (unionOf ss)).or <|
  (each? byteSet? branches).map fun ss => ofSet .bytes (unionOf ss)

/-- The items of a pattern that is nothing but items in a row. -/
def row? : Core → Option (List Core)
  | .concat items => some items
  | _ => none

/-- The longest list that both begin with. -/
def commonStart : List Core → List Core → List Core
  | a :: as, b :: bs => if a == b then a :: commonStart as bs else []
  | _, _ => []

/-- The items that all rows begin with. -/
def sharedStart : List (List Core) → List Core
  | [] => []
  | row :: rows => rows.foldl commonStart row

/-- Some patterns as alternatives. Taking out what they begin with makes them smaller; `budget` is
an upper bound on their size. -/
def choice : Nat → List Core → Core
  | budget, branches =>
    match branches.flatMap branchesOf with
    | [] => fail
    | [branch] => branch
    | branches =>
      match classOf? branches with
      | some h => h
      | none =>
        match budget, each? row? branches with
        | budget + 1, some rows =>
          let shared := sharedStart rows
          if shared.isEmpty then .alternation branches
          else
            inRow
              (shared ++ [choice budget (rows.map fun row => inRow (row.drop shared.length))])
        | _, _ => .alternation branches

/-- Some patterns as alternatives. -/
def oneOf (branches : List Core) : Core := choice (size.sizeOfItems branches) branches

/-! ## Assertions at the ends -/

/-- Whether a part of a row may take a byte. -/
def takesByte (h : Core) : Bool := h.maxLength ≠ some 0

mutual

/-- Every match has to pass an assertion before its first byte, as far as the form shows it. -/
def startsWith (l : Look) : Core → Bool
  | .look l' => l' = l
  | .repetition min _ _ sub => 0 < min && sub.startsWith l
  | .capture _ sub => sub.startsWith l
  | .concat items => anyStartsWith l items
  | .alternation branches => allStartWith l branches
  | _ => false

/-- Some item of a row starts with the assertion, before one may take a byte. -/
def anyStartsWith (l : Look) : List Core → Bool
  | [] => false
  | item :: items => item.startsWith l || (!item.takesByte && anyStartsWith l items)

def allStartWith (l : Look) : List Core → Bool
  | [] => true
  | branch :: branches => branch.startsWith l && allStartWith l branches

end

mutual

/-- Every match has to pass an assertion after its last byte, as far as the form shows it. -/
def endsWith (l : Look) : Core → Bool
  | .look l' => l' = l
  | .repetition min _ _ sub => 0 < min && sub.endsWith l
  | .capture _ sub => sub.endsWith l
  | .concat items => anyEndsWith l items
  | .alternation branches => allEndWith l branches
  | _ => false

/-- Some item of a row ends with the assertion, and none behind it may take a byte. -/
def anyEndsWith (l : Look) : List Core → Bool
  | [] => false
  | item :: items =>
    anyEndsWith l items || (items.all (fun i => !i.takesByte) && item.endsWith l)

def allEndWith (l : Look) : List Core → Bool
  | [] => true
  | branch :: branches => branch.endsWith l && allEndWith l branches

end

end Core

end FlowSafety.Pattern
