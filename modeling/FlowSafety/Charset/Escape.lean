import FlowSafety.Charset.CharClass

/-!
# Escaping contexts

An escaping transform encodes for one output context. Contexts are not interchangeable: entity
encoding for HTML leaves backslashes and line ends alone, so it does not protect a script string.
`EscapeContext.neutralized` is the set of characters that an escaped text does not hold raw.
-/

namespace FlowSafety

/-- The output context that an escaping transform encodes for. -/
inductive EscapeContext where
  /-- Entity encoding of the markup characters. -/
  | html
  /-- Entity encoding of everything but letters and digits. -/
  | htmlAttribute
  /-- Backslash escapes of a script string. -/
  | script
  /-- Percent encoding. -/
  | url
  /-- Escapes of a style sheet. -/
  | css
deriving DecidableEq, Repr

namespace EscapeContext

def all : List EscapeContext := [.html, .htmlAttribute, .script, .url, .css]

def name : EscapeContext → String
  | .html => "html"
  | .htmlAttribute => "html_attribute"
  | .script => "script"
  | .url => "url"
  | .css => "css"

/-- The alphabet of the output, where the encoding has one that a check of raw characters can use.
Entity and backslash encodings write `&` and the backslash themselves. -/
def alphabet? : EscapeContext → Option CharClass
  | .url => some (.union .urlUnreserved (.ofText "%+"))
  | .css => some (.union .alphanumeric (.ofText "\\ "))
  | .html | .htmlAttribute | .script => none

/-- The characters that an escaped text does not hold raw. -/
def neutralized : EscapeContext → CharClass
  | .html => .ofText "<>&\"'"
  | .htmlAttribute => .ofText "<>&\"'\x60="
  | .script => .ofText "<>&\"'\\\n\r"
  | .url => CharClass.compl (.union .urlUnreserved (.ofText "%+"))
  | .css => CharClass.compl (.union .alphanumeric (.ofText "\\ "))

/-- The most output characters that one input character can become: `&quot;`, a script escape with
four hex digits, four bytes in percent encoding, six digits between backslash and blank. -/
def maxExpansion : EscapeContext → Nat
  | .html => 6
  | .htmlAttribute => 6
  | .script => 6
  | .url => 12
  | .css => 8

/-- Whether a text escaped for the first context is also escaped for the second. -/
def covers (a b : EscapeContext) : Bool := a = b || (a = .htmlAttribute && b = .html)

end EscapeContext

end FlowSafety
