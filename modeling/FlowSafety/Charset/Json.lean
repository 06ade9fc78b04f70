import FlowSafety.Charset.Guarantee
import FlowSafety.Json.Decode

/-!
# Charsets in JSON

A character class is written as two words of 64 bits, code 0 in the lowest bit of the first, and the
summary of what lies beyond ASCII. Charsets are choices. The pattern and the kept characters of a
format are left out where there are none.
-/

namespace FlowSafety

namespace NonAscii

def name : NonAscii → String
  | .none => "none"
  | .some => "some"
  | .all => "all"

def ofJson? (j : Json) : Option NonAscii := j.unitChoice? [.none, .some, .all] name

end NonAscii

namespace CharClass

/-- The number of values of a word of 64 bits. -/
def wordSize : Nat := 0x10000000000000000

def toJson (k : CharClass) : Json :=
  .object
    [("bits", .array [.ofNat (k.ascii.toNat % wordSize), .ofNat (k.ascii.toNat / wordSize)]),
      ("non_ascii", .ofText k.nonAscii.name)]

def ofJson? (j : Json) : Option CharClass :=
  (j.record? ["bits", "non_ascii"]).bind fun fields =>
    match fields with
    | [bits, nonAscii] => do
      let (low, high) ← bits.required (Json.pair? Json.size? Json.size?)
      return ⟨BitVec.ofNat 128 (low + wordSize * high), ← nonAscii.required NonAscii.ofJson?⟩
    | _ => none

end CharClass

def EscapeContext.ofJson? (j : Json) : Option EscapeContext :=
  j.unitChoice? EscapeContext.all EscapeContext.name

namespace TextSet

def toJson (s : TextSet) : Json := .ofList .ofText s.toList

def ofJson? (j : Json) : Option TextSet := (j.list? Json.text?).map ofList

end TextSet

namespace Charset

/-- The members of a format that are there only sometimes. -/
def patternMember : Option String → List (String × Json)
  | some pattern => [("pattern", .ofText pattern)]
  | none => []

def toJson : Charset → Json
  | .unconstrained => .ofText "Unconstrained"
  | .escaped context => .variant "ExcludesMarkupControls" (.ofText context.name)
  | .digits => .ofText "DigitsOnly"
  | .hexDigits => .ofText "HexDigitsOnly"
  | .base64 => .ofText "Base64Alphabet"
  | .format chars pattern =>
    .variant "FixedFormat" (.object (("chars", chars.toJson) :: patternMember pattern))
  | .masked chars pattern kept unmasked =>
    .variant "FixedFormat"
      (.object
        (("chars", chars.toJson) :: patternMember pattern ++
          [("retained",
            .object [("max_chars", .ofNat kept), ("charset", unmasked.toJson)])]))
  | .oneOf values => .variant "EnumMember" values.toJson

/-- A charset nested at most so deep. -/
def ofJsonWithin? : Nat → Json → Option Charset
  | 0, _ => none
  | depth + 1, j =>
    j.choice?.bind fun c =>
      match c with
      | ("Unconstrained", none) | ("Unconstrained", some .null) => some .unconstrained
      | ("DigitsOnly", none) | ("DigitsOnly", some .null) => some .digits
      | ("HexDigitsOnly", none) | ("HexDigitsOnly", some .null) => some .hexDigits
      | ("Base64Alphabet", none) | ("Base64Alphabet", some .null) => some .base64
      | ("ExcludesMarkupControls", some context) =>
        (EscapeContext.ofJson? context).map .escaped
      | ("EnumMember", some values) => (TextSet.ofJson? values).map .oneOf
      | ("FixedFormat", some shape) =>
        (shape.record? ["chars", "pattern", "retained"]).bind fun fields =>
          match fields with
          | [chars, pattern, retained] => do
            let chars ← chars.required CharClass.ofJson?
            let pattern ← pattern.withDefault none (Json.nullable? Json.text?)
            let retained ← retained.withDefault none (Json.nullable? some)
            match retained with
            | none => return .format chars pattern
            | some retained =>
              match ← retained.record? ["max_chars", "charset"] with
              | [kept, unmasked] =>
                return .masked chars pattern (← kept.required Json.size?)
                  (← unmasked.required (ofJsonWithin? depth))
              | _ => none
          | _ => none
      | _ => none

/-- The deepest nesting of a value, counting itself. -/
def nesting : Json → Nat
  | .array items => nestingOfItems items + 1
  | .object members => nestingOfMembers members + 1
  | _ => 1
where
  nestingOfItems : List Json → Nat
    | [] => 0
    | item :: items => max (nesting item) (nestingOfItems items)
  nestingOfMembers : List (String × Json) → Nat
    | [] => 0
    | (_, value) :: members => max (nesting value) (nestingOfMembers members)

def ofJson? (j : Json) : Option Charset := ofJsonWithin? (nesting j) j

end Charset

namespace TextGuarantee

def toJson (g : TextGuarantee) : Json :=
  .object
    [("charset", g.charset.toJson), ("max_length", .ofOption .ofNat g.maxLength),
      ("value_set", .ofOption TextSet.toJson g.values)]

def ofJson? (j : Json) : Option TextGuarantee :=
  (j.record? ["charset", "max_length", "value_set"]).bind fun fields =>
    match fields with
    | [charset, maxLength, values] => do
      return {
        charset := ← charset.required Charset.ofJson?
        maxLength := ← maxLength.withDefault none (Json.nullable? Json.size?)
        values := ← values.withDefault none (Json.nullable? TextSet.ofJson?) }
    | _ => none

end TextGuarantee

end FlowSafety
