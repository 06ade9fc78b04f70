/-!
# The syntax of patterns

A pattern as it is written: `Ast` keeps groups, flags and classes apart, and says nothing yet about
what a class holds or what an anchor means, which depends on the flags in force.
-/

namespace FlowSafety.Pattern

/-! ## Flags -/

/-- A letter in a flag group. -/
inductive Flag where
  | caseInsensitive
  | multiLine
  | dotMatchesLineEnd
  | swapGreed
  | unicode
  | crlf
  | ignoreBlank
deriving DecidableEq, Repr

namespace Flag

def ofLetter? : Char → Option Flag
  | 'i' => some caseInsensitive
  | 'm' => some multiLine
  | 's' => some dotMatchesLineEnd
  | 'U' => some swapGreed
  | 'u' => some unicode
  | 'R' => some crlf
  | 'x' => some ignoreBlank
  | _ => none

end Flag

/-- The flags that a group sets and those that it clears. -/
structure FlagChange where
  set : List Flag := []
  cleared : List Flag := []
deriving DecidableEq, Repr, Inhabited

namespace FlagChange

/-- The value of a flag after the change. -/
def apply (change : FlagChange) (flag : Flag) (before : Bool) : Bool :=
  if change.set.contains flag then true
  else if change.cleared.contains flag then false
  else before

def isEmpty (change : FlagChange) : Bool := change.set.isEmpty && change.cleared.isEmpty

end FlagChange

/-! ## Leaves -/

/-- A character; `byte` says that it is written as `\xNN`, which is a byte where bytes are meant. -/
structure Literal where
  char : Char
  byte : Bool := false
deriving DecidableEq, Repr

/-- A condition on the word characters around a position. -/
inductive WordCondition where
  | boundary
  | notBoundary
  | start
  | stop
  | startHalf
  | stopHalf
deriving DecidableEq, Repr

/-- An assertion about a position. -/
inductive Assertion where
  /-- `^` -/
  | startLine
  /-- `$` -/
  | endLine
  | startText
  | endText
  | word (condition : WordCondition)
deriving DecidableEq, Repr

/-- The classes with a letter of their own. -/
inductive LetterClass where
  | digit
  | space
  | word
deriving DecidableEq, Repr

/-- A class named between `[:` and `:]`. -/
inductive NamedClass where
  | alnum
  | alpha
  | ascii
  | blank
  | cntrl
  | digit
  | graph
  | lower
  | print
  | punct
  | space
  | upper
  | word
  | xdigit
deriving DecidableEq, Repr

namespace NamedClass

def ofName? : String → Option NamedClass
  | "alnum" => some alnum
  | "alpha" => some alpha
  | "ascii" => some ascii
  | "blank" => some blank
  | "cntrl" => some cntrl
  | "digit" => some digit
  | "graph" => some graph
  | "lower" => some lower
  | "print" => some print
  | "punct" => some punct
  | "space" => some space
  | "upper" => some upper
  | "word" => some word
  | "xdigit" => some xdigit
  | _ => none

end NamedClass

/-- What a property class asks for. -/
inductive PropertyQuery where
  /-- A category, a script or a yes-or-no property. -/
  | named (name : String)
  /-- A value of a property, or any other value. -/
  | valued (name value : String) (equal : Bool)
deriving DecidableEq, Repr

/-! ## Classes -/

inductive ClassOp where
  | inter
  | diff
  | symmDiff
deriving DecidableEq, Repr

/-- What stands between the brackets of a class. -/
inductive ClassSet where
  | empty
  | literal (l : Literal)
  | range (first last : Literal)
  | named (kind : NamedClass) (negated : Bool)
  | property (query : PropertyQuery) (negated : Bool)
  | letter (kind : LetterClass) (negated : Bool)
  | bracketed (negated : Bool) (set : ClassSet)
  | union (items : List ClassSet)
  | binary (op : ClassOp) (left right : ClassSet)

/-! ## Patterns -/

inductive GroupKind where
  | capture (index : Nat)
  /-- A group that only holds its pattern together, perhaps under other flags. -/
  | plain (change : FlagChange)
deriving DecidableEq, Repr

/-- A pattern as written. -/
inductive Ast where
  | empty
  /-- A change of flags that holds up to the end of the group around it. -/
  | flags (change : FlagChange)
  | literal (l : Literal)
  | dot
  | assertion (a : Assertion)
  | property (query : PropertyQuery) (negated : Bool)
  | letter (kind : LetterClass) (negated : Bool)
  | bracketed (negated : Bool) (set : ClassSet)
  | repetition (min : Nat) (max : Option Nat) (greedy : Bool) (sub : Ast)
  | group (kind : GroupKind) (sub : Ast)
  | alternation (branches : List Ast)
  | concat (items : List Ast)

/-! ## Depth -/

namespace ClassSet

mutual

/-- How deeply brackets, lists and operations of a class are nested. -/
def depth : ClassSet → Nat
  | .bracketed _ set => set.depth + 1
  | .union items => depthOfItems items + 1
  | .binary _ left right => max left.depth right.depth + 1
  | _ => 0

def depthOfItems : List ClassSet → Nat
  | [] => 0
  | item :: items => max item.depth (depthOfItems items)

end

end ClassSet

namespace Ast

mutual

/-- How deeply the parts of a pattern are nested. -/
def depth : Ast → Nat
  | .bracketed _ set => set.depth + 1
  | .repetition _ _ _ sub => sub.depth + 1
  | .group _ sub => sub.depth + 1
  | .alternation branches => depthOfItems branches + 1
  | .concat items => depthOfItems items + 1
  | _ => 0

def depthOfItems : List Ast → Nat
  | [] => 0
  | item :: items => max item.depth (depthOfItems items)

end

mutual

/-- Whether a `$` stands anywhere in the pattern. -/
def hasEndLine : Ast → Bool
  | .assertion .endLine => true
  | .repetition _ _ _ sub => sub.hasEndLine
  | .group _ sub => sub.hasEndLine
  | .alternation branches => anyHasEndLine branches
  | .concat items => anyHasEndLine items
  | _ => false

def anyHasEndLine : List Ast → Bool
  | [] => false
  | item :: items => item.hasEndLine || anyHasEndLine items

end

/-- The pattern of some items in a row. -/
def ofItems : List Ast → Ast
  | [] => .empty
  | [item] => item
  | items => .concat items

/-- The pattern of some alternatives. -/
def ofBranches : List Ast → Ast
  | [] => .empty
  | [branch] => branch
  | branches => .alternation branches

/-- Whether a repetition may follow: there has to be something to repeat. -/
def isRepeatable : Ast → Bool
  | .empty => false
  | .flags _ => false
  | _ => true

end Ast

end FlowSafety.Pattern
