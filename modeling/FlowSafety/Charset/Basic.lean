import FlowSafety.Charset.Escape
import FlowSafety.Text.Set
import FlowSafety.Text.Casing
import FlowSafety.Size

/-!
# Charsets

What is known about the characters of a text. A `Charset` comes from what was done to the text: it
was escaped, confined to an alphabet, matched against a pattern, masked, or picked from a list.

`Charset.possible` is the class of the characters that may occur raw. `concat` and `caseMapped` give
the charset of a concatenation and of a case mapping, and both keep `possible` sound.
-/

namespace FlowSafety

/-- What is known about the characters of a text. -/
inductive Charset where
  /-- Nothing. -/
  | unconstrained
  /-- The whole text is escaped for a context. -/
  | escaped (context : EscapeContext)
  /-- Decimal digits only. -/
  | digits
  /-- Hexadecimal digits only. -/
  | hexDigits
  /-- Base64 only, standard or URL-safe. -/
  | base64
  /-- Characters of a class only, perhaps known from a pattern. -/
  | format (chars : CharClass) (pattern : Option String)
  /-- Characters of a class, and up to `kept` characters of a text that had the charset `unmasked`
  before it was masked. -/
  | masked (chars : CharClass) (pattern : Option String) (kept : Nat) (unmasked : Charset)
  /-- One of finitely many texts. -/
  | oneOf (values : TextSet)
deriving DecidableEq

namespace Charset

instance : Inhabited Charset := ⟨unconstrained⟩

def isUnconstrained : Charset → Bool
  | .unconstrained => true
  | _ => false

/-- The characters that may occur raw. -/
def possible : Charset → CharClass
  | .unconstrained => .any
  | .escaped context => context.alphabet?.getD (CharClass.any.diff context.neutralized)
  | .digits => .digits
  | .hexDigits => .hexDigits
  | .base64 => .base64
  | .format chars _ => chars
  | .masked chars _ _ unmasked => chars.union unmasked.possible
  | .oneOf values => values.toList.foldl (fun k v => k.union (.ofText v)) .empty

/-- The tightest named charset of a class. -/
def ofClass (k : CharClass) : Charset :=
  if k = .any then .unconstrained
  else if k.isSubsetOf .digits then .digits
  else if k.isSubsetOf .hexDigits then .hexDigits
  else .format k none

/-- The charset of a text escaped for a context, followed or preceded by another text. The escaping
survives if the other text cannot bring a character that it neutralizes. -/
def besideEscaped (context : EscapeContext) (other : Charset) : Charset :=
  if other.possible.intersects context.neutralized then .unconstrained else .escaped context

/-- The charset of the concatenation of two texts. -/
def concat : Charset → Charset → Charset
  | .unconstrained, _ => .unconstrained
  | _, .unconstrained => .unconstrained
  | .escaped a, .escaped b =>
    if a.covers b then .escaped b else if b.covers a then .escaped a else .unconstrained
  | .escaped context, other => besideEscaped context other
  | other, .escaped context => besideEscaped context other
  | a, b => ofClass (a.possible.union b.possible)

/-- The most characters that one character becomes under a case mapping, such as the ligature of
`ffi`. -/
def maxCaseExpansion : Nat := 3

/-- The charset after a mapping to lower or upper case. A mapping makes letters of letters, so
escaping and the named alphabets survive it. -/
def caseMapped (lower : Bool) : Charset → Charset
  | .format chars _ => .format (chars.caseMapped lower) none
  | .masked chars _ kept unmasked =>
    .masked (chars.caseMapped lower) none
      (if unmasked.possible.hasNonAscii then Size.saturated (maxCaseExpansion * kept) else kept)
      (unmasked.caseMapped lower)
  | .oneOf values => .oneOf (values.map (Text.mapCase lower))
  | other => other

/-- How a charset is written; of many values, only the first five. -/
def text : Charset → String
  | .unconstrained => "Unconstrained"
  | .escaped context => "ExcludesMarkupControls(" ++ context.name ++ ")"
  | .digits => "DigitsOnly"
  | .hexDigits => "HexDigitsOnly"
  | .base64 => "Base64Alphabet"
  | .format chars _ => "FixedFormat(" ++ chars.text ++ ")"
  | .masked chars _ kept unmasked =>
    "FixedFormat(" ++ chars.text ++ " + <= " ++ toString kept ++ " retained chars of "
      ++ unmasked.text ++ ")"
  | .oneOf values =>
    "EnumMember\x7b" ++ ", ".intercalate (values.toList.take 5)
      ++ (if 5 < values.size then ", ..." else "") ++ "\x7d"

end Charset

end FlowSafety
