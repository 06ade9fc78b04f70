import FlowSafety.Charset.CharClass
import FlowSafety.Pattern.Reader
import FlowSafety.Pattern.Resolve
import FlowSafety.Text.Lossy

/-!
# What a check against a pattern establishes

A text that passed a check against a pattern is confined to the characters that the pattern can
take, and to the length of its longest match, if every match spans the text. That is so where the
check is for the whole text, and where the pattern asserts the start of the text before its first
character and the end of the text behind its last one, in every branch.

The end of the text may then still be in front of a final line end, which `$` and a closing `\Z`
allow; the line ends join the class, and the two characters of the longest one join the length.
-/

namespace FlowSafety.Pattern

/-- What is known about a text that matches. -/
structure Shape where
  /-- Every character that it may hold. -/
  chars : CharClass
  /-- The most bytes that it takes, where there is a bound. -/
  maxLength : Option Nat
deriving DecidableEq, Repr

/-! ## Characters -/

/-- The characters that some bytes are read as. -/
def charsOfBytes (bytes : List UInt8) : CharClass := .ofList (Text.lossyChars bytes)

/-- The characters of a range of bytes. All bytes beyond ASCII together make every character beyond
ASCII, fewer of them only some. -/
def charsOfByteRange (range : Nat × Nat) : CharClass :=
  let (lo, hi) := range
  let ascii : CharClass :=
    if lo < 0x80 then .ofRange (Char.ofNat lo) (Char.ofNat (min hi 0x7F)) else .empty
  if hi < 0x80 then ascii
  else if lo ≤ 0x80 ∧ hi = 0xFF then ascii.union (.ofRange '\x80' (Char.ofNat 0x10FFFF))
  else ascii.union (.ofText "\x80")

/-- The first character whose code is not less than a number. -/
def firstChar (n : Nat) : Char :=
  if n.isValidChar then Char.ofNat n
  else if n < 0xE000 then '\uE000' else Char.ofNat 0x10FFFF

/-- The last character whose code is not greater than a number. -/
def lastChar (n : Nat) : Char :=
  if n.isValidChar then Char.ofNat n
  else if n < 0xE000 then '\uD7FF' else Char.ofNat 0x10FFFF

mutual

/-- Every character that a match can take. -/
def Core.chars : Core → CharClass
  | .empty => .empty
  | .literal bytes => charsOfBytes bytes
  | .set .characters s => .ofRanges (s.ranges.map fun r => (firstChar r.1, lastChar r.2))
  | .set .bytes s => s.ranges.foldl (fun k r => k.union (charsOfByteRange r)) .empty
  | .look _ => .empty
  | .repetition _ _ _ sub => sub.chars
  | .capture _ sub => sub.chars
  | .concat items => charsOfAll items
  | .alternation branches => charsOfAll branches

def charsOfAll : List Core → CharClass
  | [] => .empty
  | item :: items => item.chars.union (charsOfAll items)

end

/-! ## Shapes -/

/-- The line ends in front of which `$` may stand. -/
def lineEndChars : List Char := ['\n', '\r', '\x85', '\u2028', '\u2029']

/-- The number of backslashes at the end of a reversed text. -/
def backslashes (reversed : List Char) : Nat := (reversed.takeWhile (· = '\\')).length

/-- The pattern with a closing `\Z` written as `$`. -/
def withDollar (pattern : String) : String :=
  match pattern.toList.reverse with
  | 'Z' :: '\\' :: before =>
    if backslashes before % 2 = 0 then String.ofList (before.reverse ++ ['$']) else pattern
  | _ => pattern

/-- The shape of the texts that a whole match takes. -/
def Core.shape (h : Core) : Shape := ⟨h.chars, h.maxLength⟩

/-- The shape with a line end at the end of the text. -/
def Shape.beforeLineEnd (s : Shape) : Shape :=
  { chars := lineEndChars.foldl CharClass.insert s.chars
    maxLength := s.maxLength.bind fun n => Size.checked (n + 2) }

/-- What a text that passed a check against the pattern looks like; `full` says that the check is
for the whole text, whether anchored or not. Nothing is known if the pattern cannot be read, or if a
match need not span the text. -/
def shape? (pattern : String) (full : Bool) : Option Shape :=
  (parse? (withDollar pattern)).bind fun ast => (meaning? .ascii ast).bind fun h =>
    if full then some h.shape
    else if h.startsWith .start && h.endsWith .stop then
      some (if ast.hasEndLine then h.shape.beforeLineEnd else h.shape)
    else none

end FlowSafety.Pattern
