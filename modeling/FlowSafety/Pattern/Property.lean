import FlowSafety.Pattern.CodeSet
import FlowSafety.Pattern.Syntax
import FlowSafety.Unicode.Age
import FlowSafety.Unicode.Break
import FlowSafety.Unicode.Property
import FlowSafety.Unicode.Script

/-!
# Named sets of characters

The sets that class names, class letters and property queries stand for. Property names are compared
without regard to case, blanks, dashes, underscores and a leading `is`.
-/

namespace FlowSafety.Pattern

/-! ## Classes of ASCII -/

def NamedClass.ranges : NamedClass → List (Nat × Nat)
  | .alnum => [(48, 57), (65, 90), (97, 122)]
  | .alpha => [(65, 90), (97, 122)]
  | .ascii => [(0, 127)]
  | .blank => [(9, 9), (32, 32)]
  | .cntrl => [(0, 31), (127, 127)]
  | .digit => [(48, 57)]
  | .graph => [(33, 126)]
  | .lower => [(97, 122)]
  | .print => [(32, 126)]
  | .punct => [(33, 47), (58, 64), (91, 96), (123, 126)]
  | .space => [(9, 13), (32, 32)]
  | .upper => [(65, 90)]
  | .word => [(48, 57), (65, 90), (95, 95), (97, 122)]
  | .xdigit => [(48, 57), (65, 70), (97, 102)]

def NamedClass.set (k : NamedClass) : CodeSet := .ofRanges k.ranges

/-- The ASCII characters of a class letter. -/
def LetterClass.ascii : LetterClass → CodeSet
  | .digit => NamedClass.digit.set
  | .space => NamedClass.space.set
  | .word => NamedClass.word.set

/-- The characters of a class letter. -/
def LetterClass.characters : LetterClass → CodeSet
  | .digit => .ofRanges Unicode.decimalDigits
  | .space => .ofRanges Unicode.whiteSpace
  | .word => .ofRanges Unicode.wordRanges

/-! ## Property queries -/

/-- A name reduced to what counts in it. The name of a category that only looks like a leading `is`
is kept. -/
def plainName (name : String) : String :=
  let cs := name.toList
  let (isFirst, cs) := match cs with
    | a :: b :: rest => if a.toLower = 'i' && b.toLower = 's' then (true, rest) else (false, cs)
    | _ => (false, cs)
  let kept := cs.filter fun c => c ≠ ' ' && c ≠ '_' && c ≠ '-' && c.toNat < 128
  let plain := String.ofList (kept.map Char.toLower)
  if isFirst && plain = "c" then "isc" else plain

/-- The characters of a category, or of one of the sets that are named like a category. -/
def categorySet? (name : String) : Option CodeSet :=
  match name with
  | "any" => some ⟨[(0, 0x10FFFF)]⟩
  | "ascii" => some ⟨[(0, 0x7F)]⟩
  | "assigned" =>
    some (CodeSet.compl .characters (.ofRanges (Unicode.Category.ranges [.cn])))
  | name => (Unicode.Category.named? name).map fun cs => .ofRanges (Unicode.Category.ranges cs)

/-- The characters of a property that has no value. Three names are those of categories too, and
mean the category. -/
def binarySet? (name : String) : Option CodeSet :=
  if name = "cf" ∨ name = "sc" ∨ name = "lc" then none
  else (Unicode.Property.ranges? name).map .ofRanges

/-- The characters of a name that stands alone. -/
def namedSet? (name : String) : Option CodeSet :=
  (binarySet? name).or <| (categorySet? name).or <| (Unicode.Script.ranges? name).map .ofRanges

/-- The ranges of the characters for which a property has a value, other than a category. -/
def valueRanges? (name value : String) : Option (List (Nat × Nat)) :=
  if name = "sc" ∨ name = "script" then Unicode.Script.ranges? value
  else if name = "scx" ∨ name = "scriptextensions" then Unicode.Script.extendedRanges? value
  else if name = "age" then Unicode.Age.ranges? value
  else if name = "gcb" ∨ name = "graphemeclusterbreak" then Unicode.Break.clusterRanges? value
  else if name = "wb" ∨ name = "wordbreak" then Unicode.Break.wordRanges? value
  else if name = "sb" ∨ name = "sentencebreak" then Unicode.Break.sentenceRanges? value
  else none

/-- The characters for which a property has a value. -/
def valuedSet? (name value : String) : Option CodeSet :=
  if name = "gc" ∨ name = "generalcategory" then categorySet? value
  else (valueRanges? name value).map .ofRanges

/-- The characters that a query asks for, and whether it asks for the others. -/
def PropertyQuery.set? : PropertyQuery → Option (CodeSet × Bool)
  | .named name => (namedSet? (plainName name)).map fun s => (s, false)
  | .valued name value equal =>
    (valuedSet? (plainName name) (plainName value)).map fun s => (s, !equal)

end FlowSafety.Pattern
