import FlowSafety.Unicode.Case
import FlowSafety.Unicode.Character

/-!
# Case mapping of texts

The lower and the upper case of a text, character by character. One character depends on its
surroundings: a capital sigma at the end of a word becomes a final sigma.
-/

namespace FlowSafety.Text

/-- The first character that a case mapping does not look through is cased. -/
def touchesCased (cs : List Char) : Bool :=
  match cs.dropWhile Unicode.isCaseIgnorable with
  | [] => false
  | c :: _ => Unicode.isCased c

/-- The lower case of some characters; `before` are those in front of them, last one first. -/
def lowerFrom (before : List Char) : List Char → List Char
  | [] => []
  | c :: cs =>
    let mapped :=
      if c = 'Σ' then
        if touchesCased before && !touchesCased cs then ['ς'] else ['σ']
      else Unicode.Case.lower c
    mapped ++ lowerFrom (c :: before) cs

def toLower (s : String) : String := String.ofList (lowerFrom [] s.toList)

def toUpper (s : String) : String := String.ofList (s.toList.flatMap Unicode.Case.upper)

/-- The lower or the upper case of a text. -/
def mapCase (lower : Bool) (s : String) : String := if lower then toLower s else toUpper s

end FlowSafety.Text
