import FlowSafety.Pattern.Syntax
import FlowSafety.Size
import FlowSafety.Unicode.Character

/-!
# Reading patterns

The reader takes a pattern from left to right. It keeps the groups that are still open, innermost
first, and for each the branches and items that are complete; within a class it keeps the open
brackets the same way. Every turn takes a character, so the length of the pattern bounds the turns.

Under the flag `x` blanks and comments between the parts of a pattern are passed over; `Cursor`
knows whether they are.
-/

namespace FlowSafety.Pattern

/-! ## The rest of a pattern -/

/-- What is left to read, and whether blanks in it are passed over. -/
structure Cursor where
  rest : List Char
  ignoreBlank : Bool

namespace Cursor

mutual

/-- The characters after blanks and comments. -/
def afterBlanks : List Char → List Char
  | [] => []
  | c :: cs =>
    if Unicode.isWhiteSpace c then afterBlanks cs
    else if c = '#' then afterComment cs
    else c :: cs

/-- The characters after the comment that is being read, and the blanks behind it. -/
def afterComment : List Char → List Char
  | [] => []
  | c :: cs => if c = '\n' then afterBlanks cs else afterComment cs

end

/-- Pass over blanks where they do not count. -/
def skip (s : Cursor) : Cursor := if s.ignoreBlank then { s with rest := afterBlanks s.rest } else s

/-- Take one character. -/
def advance (s : Cursor) : Cursor := { s with rest := s.rest.tail }

/-- Take one character and the blanks behind it. -/
def advanceSkip (s : Cursor) : Cursor := s.advance.skip

/-- The character that follows a class item, looking past blanks and the mark of one comment. -/
def peek? (s : Cursor) : Option Char :=
  let next := s.rest.tail
  if s.ignoreBlank then
    let seen := next.dropWhile Unicode.isWhiteSpace
    let seen :=
      match seen with
      | '#' :: more => more.dropWhile Unicode.isWhiteSpace
      | _ => seen
    if seen.isEmpty then next.head? else seen.head?
  else next.head?

/-- Take characters while they pass a test, each with the blanks behind it; at most so many. -/
def takeWhile : Nat → (Char → Bool) → Cursor → List Char × Cursor
  | 0, _, s => ([], s)
  | n + 1, test, s =>
    match s.rest with
    | c :: _ =>
      if test c then
        let (taken, s) := takeWhile n test s.advanceSkip
        (c :: taken, s)
      else ([], s)
    | [] => ([], s)

end Cursor

/-! ## Escapes -/

def isHexDigit (c : Char) : Bool :=
  c.isDigit || ('a' ≤ c && c ≤ 'f') || ('A' ≤ c && c ≤ 'F')

/-- The value of a hexadecimal digit. -/
def hexDigitValue (c : Char) : Nat :=
  if c.isDigit then c.toNat - 48 else if c.toNat < 97 then c.toNat - 55 else c.toNat - 87

/-- The character with the code that some hexadecimal digits write. -/
def charOfHex? (digits : List Char) : Option Char :=
  let code := digits.foldl (fun n c => 16 * n + hexDigitValue c) 0
  if code < 0xD800 ∨ (0xDFFF < code ∧ code ≤ 0x10FFFF) then some (Char.ofNat code) else none

/-- So many hexadecimal digits, with blanks between them but none needed behind the last. -/
def hexDigits? : Nat → Cursor → Option (List Char × Cursor)
  | 0, s => some ([], s)
  | n + 1, s =>
    match s.rest with
    | c :: _ =>
      if isHexDigit c then (hexDigits? n s.advanceSkip).map fun r => (c :: r.1, r.2) else none
    | [] => none

/-- A character by its code: so many digits, or any number of digits between braces. -/
def hexLiteral? (width : Nat) (s : Cursor) : Option (Literal × Cursor) :=
  match s.rest with
  | '{' :: _ =>
    let (digits, s) := Cursor.takeWhile s.rest.length isHexDigit s.advanceSkip
    match s.rest with
    | '}' :: _ =>
      if digits.isEmpty then none
      else (charOfHex? digits).map fun c => ({ char := c }, s.advanceSkip)
    | _ => none
  | [] => none
  | _ =>
    (hexDigits? width s).bind fun (digits, s) =>
      (charOfHex? digits).map fun c => ({ char := c, byte := width = 2 }, s)

/-- The characters that stand for themselves behind a backslash because they have a meaning. -/
def isMeta (c : Char) : Bool := "\\.+*?()|[]\x7b\x7d^$#&-~".toList.contains c

/-- A character that may stand behind a backslash for itself: ASCII, and neither a letter, a digit
nor one of the angle brackets. -/
def isEscapable (c : Char) : Bool :=
  isMeta c || (c.toNat < 128 && !c.isAlphanum && c ≠ '<' && c ≠ '>')

/-- A part of a pattern that may stand for one character or position. -/
inductive Primitive where
  | literal (l : Literal)
  | dot
  | assertion (a : Assertion)
  | property (query : PropertyQuery) (negated : Bool)
  | letter (kind : LetterClass) (negated : Bool)

namespace Primitive

def toAst : Primitive → Ast
  | .literal l => .literal l
  | .dot => .dot
  | .assertion a => .assertion a
  | .property query negated => .property query negated
  | .letter kind negated => .letter kind negated

/-- As an item of a class, in which nothing asserts. -/
def toClassItem? : Primitive → Option ClassSet
  | .literal l => some (.literal l)
  | .property query negated => some (.property query negated)
  | .letter kind negated => some (.letter kind negated)
  | _ => none

/-- As an end of a range. -/
def toLiteral? : Primitive → Option Literal
  | .literal l => some l
  | _ => none

end Primitive

/-- Split a list at the first place where a text occurs. -/
def splitAtText? (text : List Char) : List Char → Option (List Char × List Char)
  | [] => none
  | c :: cs =>
    if text.isPrefixOf (c :: cs) then some ([], (c :: cs).drop text.length)
    else (splitAtText? text cs).map fun r => (c :: r.1, r.2)

/-- The query that stands between the braces of a property class. -/
def propertyQuery (cs : List Char) : PropertyQuery :=
  match splitAtText? ['!', '='] cs with
  | some (name, value) => .valued (String.ofList name) (String.ofList value) false
  | none =>
    match splitAtText? [':'] cs with
    | some (name, value) => .valued (String.ofList name) (String.ofList value) true
    | none =>
      match splitAtText? ['='] cs with
      | some (name, value) => .valued (String.ofList name) (String.ofList value) true
      | none => .named (String.ofList cs)

/-- A property class after its letter: one character, or a query between braces. -/
def propertyClass? (negated : Bool) (s : Cursor) : Option (Primitive × Cursor) :=
  match s.rest with
  | [] => none
  | '{' :: _ =>
    let (query, s) := Cursor.takeWhile s.rest.length (· ≠ '}') s.advanceSkip
    match s.rest with
    | '}' :: _ => some (.property (propertyQuery query) negated, s.advance)
    | _ => none
  | '\\' :: _ => none
  | c :: _ => some (.property (.named (String.singleton c)) negated, s.advance)

def wordConditionNamed? : String → Option WordCondition
  | "start" => some .start
  | "end" => some .stop
  | "start-half" => some .startHalf
  | "end-half" => some .stopHalf
  | _ => none

/-- A letter or a dash, as in the name of a word condition. -/
def isConditionChar (c : Char) : Bool := c.isAlpha || c = '-'

/-- The word condition after `\b`. What stands in braces is its name if it starts like one, and else
a count that belongs to a repetition. -/
def wordCondition? (s : Cursor) : Option (WordCondition × Cursor) :=
  match s.rest with
  | '{' :: _ =>
    let inside := s.advanceSkip
    match inside.rest with
    | [] => none
    | c :: _ =>
      if isConditionChar c then
        let (name, after) := Cursor.takeWhile inside.rest.length isConditionChar inside
        match after.rest with
        | '}' :: _ =>
          (wordConditionNamed? (String.ofList name)).map fun condition => (condition, after.advance)
        | _ => none
      else some (.boundary, s)
  | _ => some (.boundary, s)

/-- The part that a backslash starts; the cursor stands on the character behind it. -/
def escape? (s : Cursor) : Option (Primitive × Cursor) :=
  match s.rest with
  | [] => none
  | c :: _ =>
    let next := s.advance
    let literal (c : Char) : Option (Primitive × Cursor) := some (.literal { char := c }, next)
    let digits (width : Nat) : Option (Primitive × Cursor) :=
      (hexLiteral? width s.advanceSkip).map fun r => (.literal r.1, r.2)
    match c with
    | 'x' => digits 2
    | 'u' => digits 4
    | 'U' => digits 8
    | 'p' => propertyClass? false s.advanceSkip
    | 'P' => propertyClass? true s.advanceSkip
    | 'd' => some (.letter .digit false, next)
    | 'D' => some (.letter .digit true, next)
    | 's' => some (.letter .space false, next)
    | 'S' => some (.letter .space true, next)
    | 'w' => some (.letter .word false, next)
    | 'W' => some (.letter .word true, next)
    | 'a' => literal '\x07'
    | 'f' => literal '\x0c'
    | 't' => literal '\t'
    | 'n' => literal '\n'
    | 'r' => literal '\r'
    | 'v' => literal '\x0b'
    | 'A' => some (.assertion .startText, next)
    | 'z' => some (.assertion .endText, next)
    | 'b' => (wordCondition? next).map fun r => (.assertion (.word r.1), r.2)
    | 'B' => some (.assertion (.word .notBoundary), next)
    | '<' => some (.assertion (.word .start), next)
    | '>' => some (.assertion (.word .stop), next)
    | c => if isEscapable c then literal c else none

/-! ## Classes -/

/-- An item of a class, or an end of a range. -/
def classPrimitive? (s : Cursor) : Option (Primitive × Cursor) :=
  match s.rest with
  | [] => none
  | '\\' :: _ => escape? s.advance
  | c :: _ => some (.literal { char := c }, s.advance)

/-- An item of a class or a range of characters. A dash makes a range unless the bracket closes
behind it or another dash follows. -/
def classItem? (s : Cursor) : Option (ClassSet × Cursor) :=
  (classPrimitive? s).bind fun (first, s) =>
    let s := s.skip
    match s.rest with
    | [] => none
    | c :: _ =>
      if c ≠ '-' ∨ s.peek? = some ']' ∨ s.peek? = some '-' then
        first.toClassItem?.map fun item => (item, s)
      else
        (classPrimitive? s.advanceSkip).bind fun (last, s) =>
          first.toLiteral?.bind fun first => last.toLiteral?.bind fun last =>
            if first.char ≤ last.char then some (.range first last, s) else none

/-- The class whose name ends in a colon and a closing bracket. -/
def classNamed? (negated : Bool) (cs : List Char) : Option (ClassSet × List Char) :=
  match cs.dropWhile (· ≠ ':') with
  | ':' :: ']' :: rest =>
    (NamedClass.ofName? (String.ofList (cs.takeWhile (· ≠ ':')))).map fun kind =>
      (.named kind negated, rest)
  | _ => none

/-- A named class after its bracket, such as `:^alpha:]`. -/
def namedClass? : List Char → Option (ClassSet × List Char)
  | ':' :: '^' :: cs => classNamed? true cs
  | ':' :: cs => classNamed? false cs
  | _ => none

/-- The set of some items, which are kept last one first. -/
def setOfItems (items : List ClassSet) : ClassSet :=
  match items with
  | [] => .empty
  | [item] => item
  | items => .union items.reverse

/-- A bracket that is open: whether it is negated, the operation whose left side is complete, and
the items around the bracket, last one first. -/
structure OpenBracket where
  negated : Bool
  pending : Option (ClassOp × ClassSet)
  outer : List ClassSet

namespace OpenBracket

/-- The set of the bracket, given what stands behind its last operation. -/
def close (b : OpenBracket) (set : ClassSet) : ClassSet :=
  match b.pending with
  | some (op, left) => .binary op left set
  | none => set

end OpenBracket

/-- The dashes at the start of a class, each of them a literal. -/
def leadingDashes : Nat → Cursor → List ClassSet × Cursor
  | 0, s => ([], s)
  | n + 1, s =>
    match s.rest with
    | '-' :: _ =>
      let (items, s) := leadingDashes n s.advanceSkip
      (.literal { char := '-' } :: items, s)
    | _ => ([], s)

/-- The negation that a class may begin with. -/
def negation (s : Cursor) : Bool × Cursor :=
  match s.rest with
  | '^' :: _ => (true, s.advanceSkip)
  | _ => (false, s)

/-- The items that a class begins with, some dashes or a closing bracket that is literal because it
is the first item. Something has to follow. -/
def firstItems? (dashes : List ClassSet) (s : Cursor) : Option (List ClassSet × Cursor) :=
  match s.rest with
  | [] => none
  | ']' :: _ =>
    if dashes.isEmpty then
      let s := s.advanceSkip
      if s.rest.isEmpty then none else some ([.literal { char := ']' }], s)
    else some (dashes, s)
  | _ => some (dashes, s)

/-- Open a bracket: the cursor stands on it. A negation may follow, then the first items. -/
def openBracket? (s : Cursor) : Option (Bool × List ClassSet × Cursor) :=
  let (negated, s) := negation s.advanceSkip
  let (dashes, s) := leadingDashes s.rest.length s
  (firstItems? dashes s).map fun r => (negated, r)

/-- The operation whose sign is written twice. -/
def ClassOp.ofSign? : Char → Option ClassOp
  | '&' => some .inter
  | '-' => some .diff
  | '~' => some .symmDiff
  | _ => none

/-- The operation that starts at the cursor. -/
def classOp? (s : Cursor) : Option ClassOp :=
  match s.rest with
  | c :: d :: _ => if c = d then ClassOp.ofSign? c else none
  | _ => none

/-- Read a class: the open bracket, those around it, and the items of the innermost set, last one
first. -/
def classFrom? : Nat → OpenBracket → List OpenBracket → List ClassSet → Cursor →
    Option (Ast × Cursor)
  | 0, _, _, _, _ => none
  | turns + 1, bracket, around, items, s =>
    let s := s.skip
    match s.rest with
    | [] => none
    | '[' :: cs =>
      match namedClass? cs with
      | some (item, rest) =>
        classFrom? turns bracket around (item :: items) { s with rest := rest }
      | none =>
        (openBracket? s).bind fun (negated, inner, s) =>
          classFrom? turns { negated := negated, pending := none, outer := items }
            (bracket :: around) inner.reverse s
    | ']' :: _ =>
      let set := bracket.close (setOfItems items)
      match around with
      | [] => some (.bracketed bracket.negated set, s.advance)
      | outer :: around =>
        classFrom? turns outer around (.bracketed bracket.negated set :: bracket.outer) s.advance
    | _ =>
      match classOp? s with
      | some op =>
        let set := bracket.close (setOfItems items)
        classFrom? turns { bracket with pending := some (op, set) } around [] s.advance.advance
      | none =>
        (classItem? s).bind fun (item, s) => classFrom? turns bracket around (item :: items) s

/-- Read a class; the cursor stands on its bracket. -/
def class? (s : Cursor) : Option (Ast × Cursor) :=
  (openBracket? s).bind fun (negated, items, s) =>
    classFrom? (s.rest.length + 1) { negated := negated, pending := none, outer := [] } []
      items.reverse s

/-! ## Repetitions -/

/-- A whole number of 32 bits with blanks around it. -/
def count? (s : Cursor) : Option Nat × Cursor :=
  let s := { s with rest := s.rest.dropWhile Unicode.isWhiteSpace }
  let (digits, s) := Cursor.takeWhile s.rest.length Char.isDigit s
  let (_, s) := Cursor.takeWhile s.rest.length Unicode.isWhiteSpace s
  let n := digits.foldl (fun n c => 10 * n + (c.toNat - 48)) 0
  (if digits.isEmpty ∨ Size.largestSmall < n then none else some n, s)

/-- The bounds with a comma behind the first: there may be no other. -/
def boundsFrom? (least : Option Nat) (s : Cursor) : Option ((Nat × Option Nat) × Cursor) :=
  match s.rest with
  | '}' :: _ => least.map fun n => ((n, none), s.advanceSkip)
  | _ =>
    let (most, s) := count? s
    match least, most, s.rest with
    | some n, some m, '}' :: _ => if n ≤ m then some ((n, some m), s.advanceSkip) else none
    | _, _, _ => none

/-- The bounds of a counted repetition; the cursor stands on its brace. -/
def bounds? (s : Cursor) : Option ((Nat × Option Nat) × Cursor) :=
  let (least, s) := count? s.advanceSkip
  match s.rest with
  | ',' :: _ => boundsFrom? least s.advanceSkip
  | '}' :: _ => least.map fun n => ((n, some n), s.advanceSkip)
  | _ => none

/-- A question mark behind a repetition makes it lazy. -/
def laziness (s : Cursor) : Bool × Cursor :=
  match s.rest with
  | '?' :: _ => (false, s.advance)
  | _ => (true, s)

/-! ## Groups -/

def isNameStart (c : Char) : Bool := c = '_' || Unicode.isAlphabetic c

def isNameChar (c : Char) : Bool :=
  c = '_' || c = '.' || c = '[' || c = ']' || Unicode.isAlphanumeric c

/-- The name of a group up to its angle bracket, and what follows. -/
def groupName? (cs : List Char) : Option (String × List Char) :=
  let name := cs.takeWhile (· ≠ '>')
  match name, cs.dropWhile (· ≠ '>') with
  | c :: more, _ :: rest =>
    if isNameStart c && more.all isNameChar then some (String.ofList name, rest) else none
  | _, _ => none

/-- The flags up to a colon or a closing parenthesis, with that character and what follows. No flag
occurs twice, and at most one dash, with a flag behind it. -/
def flagChange? (change : FlagChange) (negating : Bool) (dangling : Bool) :
    List Char → Option (FlagChange × Char × List Char)
  | [] => none
  | c :: cs =>
    if c = ':' ∨ c = ')' then if dangling then none else some (change, c, cs)
    else if c = '-' then if negating then none else flagChange? change true true cs
    else
      (Flag.ofLetter? c).bind fun flag =>
        if change.set.contains flag || change.cleared.contains flag then none
        else if negating then
          flagChange? { change with cleared := change.cleared ++ [flag] } true false cs
        else flagChange? { change with set := change.set ++ [flag] } false false cs

/-- The parts of a pattern, or of an open group, that are complete: the branches, and the items of
the last one. Both are kept last one first. -/
structure Parts where
  branches : List Ast := []
  items : List Ast := []

namespace Parts

def push (p : Parts) (item : Ast) : Parts := { p with items := item :: p.items }

/-- Begin another branch. -/
def alternate (p : Parts) : Parts := { branches := .ofItems p.items.reverse :: p.branches }

/-- The pattern of all parts. -/
def close (p : Parts) : Ast := .ofBranches (Ast.ofItems p.items.reverse :: p.branches).reverse

end Parts

/-- A group that is open: its kind, the parts around it, and whether blanks counted there. -/
structure OpenGroup where
  kind : GroupKind
  outer : Parts
  ignoreBlank : Bool

/-- A pattern that is being read. -/
structure Reader where
  cursor : Cursor
  parts : Parts := {}
  groups : List OpenGroup := []
  captures : Nat := 0
  names : List String := []

namespace Reader

/-- Go on behind an item. -/
def item (r : Reader) (ast : Ast) (s : Cursor) : Reader :=
  { r with parts := r.parts.push ast, cursor := s }

/-- Enter a group of a kind. -/
def enter (r : Reader) (kind : GroupKind) (s : Cursor) : Reader :=
  let ignoreBlank := match kind with
    | .plain change => change.apply .ignoreBlank r.cursor.ignoreBlank
    | .capture _ => r.cursor.ignoreBlank
  { r with
    groups :=
      { kind := kind, outer := r.parts, ignoreBlank := r.cursor.ignoreBlank } :: r.groups
    parts := {}
    cursor := { s with ignoreBlank := ignoreBlank } }

/-- Enter a group that captures. -/
def enterCapture (r : Reader) (s : Cursor) : Reader :=
  { r.enter (.capture (r.captures + 1)) s with captures := r.captures + 1 }

/-- Enter a group with a name, which no group before it has; the cursor stands behind the angle
bracket. -/
def enterNamed? (r : Reader) (s : Cursor) : Option Reader :=
  (groupName? s.rest).bind fun (name, rest) =>
    if r.names.contains name then none
    else some { r.enterCapture { s with rest := rest } with names := name :: r.names }

/-- A change of flags, up to a colon that opens a group or to a closing parenthesis. -/
def openFlags? (r : Reader) (s : Cursor) : Option Reader :=
  (flagChange? {} false false s.rest).bind fun (change, stop, rest) =>
    let s := { s with rest := rest }
    if stop = ':' then some (r.enter (.plain change) s)
    else if change.isEmpty then none
    else
      let ignoreBlank := change.apply .ignoreBlank s.ignoreBlank
      some (r.item (.flags change) { s with ignoreBlank := ignoreBlank })

/-- What a question mark behind an opening parenthesis starts; the cursor stands behind it. Groups
that look around are refused. -/
def openMarked? (r : Reader) (s : Cursor) : Option Reader :=
  match s.rest with
  | 'P' :: '<' :: rest => r.enterNamed? { s with rest := rest }
  | '<' :: rest =>
    if rest.head? = some '=' ∨ rest.head? = some '!' then none
    else r.enterNamed? { s with rest := rest }
  | _ => r.openFlags? s

/-- An opening parenthesis: a group, or a change of flags. -/
def openGroup? (r : Reader) : Option Reader :=
  let s := r.cursor.advanceSkip
  match s.rest with
  | '?' :: _ => r.openMarked? s.advance
  | _ => some (r.enterCapture s)

/-- A closing parenthesis. -/
def closeGroup? (r : Reader) : Option Reader :=
  match r.groups with
  | [] => none
  | g :: groups =>
    some
      { r with
        groups := groups
        parts := g.outer.push (.group g.kind r.parts.close)
        cursor := { r.cursor.advance with ignoreBlank := g.ignoreBlank } }

/-- Repeat the last item. -/
def repeat? (r : Reader) (min : Nat) (max : Option Nat) (s : Cursor) : Option Reader :=
  match r.parts.items with
  | sub :: items =>
    if sub.isRepeatable then
      let (greedy, s) := laziness s
      some
        { r with
          parts := { r.parts with items := .repetition min max greedy sub :: items }
          cursor := s }
    else none
  | [] => none

/-- Read the part that the character at the cursor starts. -/
def step? (r : Reader) : Option Reader :=
  let s := r.cursor
  match s.rest with
  | [] => none
  | c :: _ =>
    match c with
    | '(' => r.openGroup?
    | ')' => r.closeGroup?
    | '|' => some { r with parts := r.parts.alternate, cursor := s.advance }
    | '[' => (class? s).map fun (ast, s) => r.item ast s
    | '?' => r.repeat? 0 (some 1) s.advance
    | '*' => r.repeat? 0 none s.advance
    | '+' => r.repeat? 1 none s.advance
    | '{' => (bounds? s).bind fun ((min, max), s) => r.repeat? min max s
    | '\\' => (escape? s.advance).map fun (p, s) => r.item p.toAst s
    | '.' => some (r.item .dot s.advance)
    | '^' => some (r.item (.assertion .startLine) s.advance)
    | '$' => some (r.item (.assertion .endLine) s.advance)
    | c => some (r.item (.literal { char := c }) s.advance)

/-- Read on to the end of the pattern. -/
def run? : Nat → Reader → Option Ast
  | 0, _ => none
  | turns + 1, r =>
    let r := { r with cursor := r.cursor.skip }
    if r.cursor.rest.isEmpty then if r.groups.isEmpty then some r.parts.close else none
    else r.step?.bind (run? turns)

end Reader

/-- The greatest depth of a pattern. -/
def maxDepth : Nat := 250

/-- Read a pattern. There is none if it is malformed or too deep. -/
def parse? (pattern : String) : Option Ast :=
  let cs := pattern.toList
  (Reader.run? (cs.length + 1) { cursor := { rest := cs, ignoreBlank := false } }).bind fun ast =>
    if ast.depth ≤ maxDepth then some ast else none

end FlowSafety.Pattern
