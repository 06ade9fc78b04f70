import FlowSafety.Pattern.Search
import FlowSafety.Pattern.Shape

/-!
# What a pattern means in ASCII

The meaning of patterns that a check of a whole text is about, written down on the pattern as it is
read: `\d`, `\w`, `\s` and words are those of ASCII, and case is that of the letters of ASCII,
whatever the flag `u` says. A property of Unicode has no meaning in ASCII and nothing has it.

A check is for the whole text, or it is a search. In a search a `$` also stands in front of a final
line end.

* `ClassSet.holds` — the characters of a class
* `Ast.Takes` — from where to where in a text a match goes
* `Matches` — the texts that pass a check
* `Ast.every` — conditions on all parts of a pattern
-/

namespace FlowSafety.Pattern

/-! ## Flags -/

/-- The flags without the one that asks for the meanings of Unicode. -/
def Flags.ascii (f : Flags) : Flags := { f with unicode := false }

/-- A test for characters, which does not tell the cases of a letter apart if the flags say so. -/
def Flags.folded (f : Flags) (p : Char → Bool) (c : Char) : Bool :=
  p c || f.caseInsensitive && (p c.toLower || p c.toUpper)

/-! ## Classes -/

/-- The tests for the characters of two sets as one. -/
def ClassOp.holds : ClassOp → Bool → Bool → Bool
  | .inter, a, b => a && b
  | .diff, a, b => a && !b
  | .symmDiff, a, b => a != b

mutual

/-- Whether a character is in a class. -/
def ClassSet.holds (f : Flags) : ClassSet → Char → Bool
  | .empty, _ => false
  | .literal l, c => c = l.char
  | .range first last, c => first.char ≤ c && c ≤ last.char
  | .named kind negated, c => f.folded (fun c => kind.set.contains c.toNat) c != negated
  | .property _ _, _ => false
  | .letter kind negated, c => kind.ascii.contains c.toNat != negated
  | .bracketed negated set, c => f.folded (set.holds f) c != negated
  | .union items, c => anyHolds f items c
  | .binary op left right, c => op.holds (f.folded (left.holds f) c) (f.folded (right.holds f) c)

def anyHolds (f : Flags) : List ClassSet → Char → Bool
  | [], _ => false
  | item :: items, c => item.holds f c || anyHolds f items c

end

/-! ## Patterns -/

/-- A step from one position to another, taken so many times. -/
def Iter (r : Nat → Nat → Prop) : Nat → Nat → Nat → Prop
  | 0, i, j => i = j
  | n + 1, i, j => ∃ k, r i k ∧ Iter r n k j

/-- The step over one character that passes a test. -/
def Over (text : Array Char) (p : Char → Bool) (i j : Nat) : Prop :=
  ∃ c, text[i]? = some c ∧ p c = true ∧ j = i + 1

/-- The texts that end a line. -/
def lineEndTexts : List (List Char) := ['\r', '\n'] :: lineEndChars.map fun c => [c]

/-- Nothing but a line end is behind a position, which is not in the middle of it. -/
def AtLastLineEnd (text : Array Char) (i : Nat) : Prop :=
  text.toList.drop i ∈ lineEndTexts ∧
    ¬ (0 < i ∧ text[i - 1]? = some '\r' ∧ text[i]? = some '\n')

mutual

/-- The flags in force behind a pattern. -/
def Ast.flagsBehind (f : Flags) : Ast → Flags
  | .flags change => (f.change change).ascii
  | .repetition _ _ _ sub => sub.flagsBehind f
  | .alternation branches => flagsBehindAll f branches
  | .concat items => flagsBehindAll f items
  | _ => f

def flagsBehindAll (f : Flags) : List Ast → Flags
  | [] => f
  | item :: items => flagsBehindAll (item.flagsBehind f) items

end

mutual

/-- From where to where in a text a match of a pattern goes. If `early` holds, a `$` also stands in
front of a last line end. -/
def Ast.Takes (text : Array Char) (early : Prop) : Ast → Flags → Nat → Nat → Prop
  | .empty, _, i, j => i = j
  | .flags _, _, i, j => i = j
  | .literal l, f, i, j => Over text (f.folded fun c => c = l.char) i j
  | .dot, f, i, j => Over text (fun c => !(lineEnds f).contains c.toNat) i j
  | .assertion a, f, i, j =>
    i = j ∧ ((look f a).holdsAt text i = true ∨ (early ∧ a = .endLine ∧ AtLastLineEnd text i))
  | .property query negated, f, i, j => Over text ((ClassSet.property query negated).holds f) i j
  | .letter kind negated, f, i, j => Over text ((ClassSet.letter kind negated).holds f) i j
  | .bracketed negated set, f, i, j => Over text ((ClassSet.bracketed negated set).holds f) i j
  | .repetition min max _ sub, f, i, j =>
    ∃ n, min ≤ n ∧ (∀ m, max = some m → n ≤ m) ∧ Iter (sub.Takes text early f) n i j
  | .group (.capture _) sub, f, i, j => sub.Takes text early f i j
  | .group (.plain change) sub, f, i, j => sub.Takes text early (f.change change).ascii i j
  | .alternation branches, f, i, j => TakesAny text early branches f i j
  | .concat items, f, i, j => TakesRow text early items f i j

/-- A match of one of some alternatives, each under the flags that the one before it leaves. -/
def TakesAny (text : Array Char) (early : Prop) : List Ast → Flags → Nat → Nat → Prop
  | [], _, _, _ => False
  | branch :: branches, f, i, j =>
    branch.Takes text early f i j ∨ TakesAny text early branches (branch.flagsBehind f) i j

/-- Matches of some patterns in a row, each under the flags that the one before it leaves. -/
def TakesRow (text : Array Char) (early : Prop) : List Ast → Flags → Nat → Nat → Prop
  | [], _, i, j => i = j
  | item :: items, f, i, j =>
    ∃ k, item.Takes text early f i k ∧ TakesRow text early items (item.flagsBehind f) k j

end

/-- Whether a text passes a check against a pattern: all of it, or some part in a search. -/
def Matches (pattern : String) (full : Bool) (v : String) : Prop :=
  ∃ ast, parse? (withDollar pattern) = some ast ∧
    let text := v.toList.toArray
    if full then ast.Takes text False Mode.ascii.flags 0 text.size
    else ∃ i j, i ≤ text.size ∧ ast.Takes text True Mode.ascii.flags i j

/-! ## Parts of patterns -/

mutual

/-- A condition on all parts of a class. -/
def ClassSet.every (q : ClassSet → Bool) : ClassSet → Bool
  | .bracketed negated set => q (.bracketed negated set) && set.every q
  | .union items => q (.union items) && everyItem q items
  | .binary op left right => q (.binary op left right) && (left.every q && right.every q)
  | set => q set

def everyItem (q : ClassSet → Bool) : List ClassSet → Bool
  | [] => true
  | item :: items => item.every q && everyItem q items

end

mutual

/-- A condition on all parts of a pattern, and one on all parts of its classes. -/
def Ast.every (p : Ast → Bool) (q : ClassSet → Bool) : Ast → Bool
  | .bracketed negated set => p (.bracketed negated set) && set.every q
  | .repetition min max greedy sub => p (.repetition min max greedy sub) && sub.every p q
  | .group kind sub => p (.group kind sub) && sub.every p q
  | .alternation branches => p (.alternation branches) && everyPart p q branches
  | .concat items => p (.concat items) && everyPart p q items
  | ast => p ast

def everyPart (p : Ast → Bool) (q : ClassSet → Bool) : List Ast → Bool
  | [] => true
  | item :: items => item.every p q && everyPart p q items

end

/-- A part of a pattern does not set a flag. -/
def Ast.leaves (flag : Flag) : Ast → Bool
  | .flags change => !change.set.contains flag
  | .group (.plain change) _ => !change.set.contains flag
  | _ => true

/-- The pattern never asks for the meanings of Unicode. -/
def Ast.isOfAscii (ast : Ast) : Bool := ast.every (Ast.leaves .unicode) fun _ => true

/-- A part of a pattern is not the long s or the Kelvin sign, which Unicode takes for an `s` and a
`k` where case does not count. -/
def Ast.isNoSign : Ast → Bool
  | .literal l => l.char ≠ 'ſ' && l.char ≠ '\u212A'
  | _ => true

/-- No part of the pattern is the long s or the Kelvin sign. -/
def Ast.hasNoSign (ast : Ast) : Bool := ast.every Ast.isNoSign fun _ => true

/-- A part of a pattern is neither a class letter nor a condition on words, and does not set the
flag that lets case not count. -/
def Ast.isPlainPart : Ast → Bool
  | .letter _ _ => false
  | .assertion (.word _) => false
  | part => part.leaves .caseInsensitive

/-- The inside of a class is not a class letter. -/
def ClassSet.isNoLetter : ClassSet → Bool
  | .letter _ _ => false
  | _ => true

/-- The pattern means the same in ASCII and in Unicode: case counts throughout, and no class letter
and no condition on words occurs. -/
def Ast.isPlain (ast : Ast) : Bool := ast.every Ast.isPlainPart ClassSet.isNoLetter

end FlowSafety.Pattern
