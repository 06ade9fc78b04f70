/-!
# Bytes read as a text

The characters that some bytes are read as. The bytes need not be the encoding of a text: a
replacement character stands for a byte that begins no character, and for the bytes at the front of
a character whose other bytes are missing.
-/

namespace FlowSafety.Text

/-- The replacement character. -/
def replacement : Char := '\uFFFD'

/-- How many bytes a character has behind a first byte, and between which bounds the first of them
lies; the other ones lie between `0x80` and `0xBF`. -/
def tail? (first : Nat) : Option (Nat × Nat × Nat) :=
  if first < 0x80 then some (0, 0x80, 0xBF)
  else if first < 0xC2 then none
  else if first < 0xE0 then some (1, 0x80, 0xBF)
  else if first < 0xF0 then
    some (2, if first = 0xE0 then 0xA0 else 0x80, if first = 0xED then 0x9F else 0xBF)
  else if first < 0xF5 then
    some (3, if first = 0xF0 then 0x90 else 0x80, if first = 0xF4 then 0x8F else 0xBF)
  else none

/-- The bytes that go on with a character, up to so many of them; the bounds are those of the
first. -/
def following : Nat → Nat → Nat → List UInt8 → List UInt8
  | 0, _, _, _ => []
  | _, _, _, [] => []
  | count + 1, least, most, b :: bytes =>
    if least ≤ b.toNat ∧ b.toNat ≤ most then b :: following count 0x80 0xBF bytes else []

/-- The code in the bits of a first byte and of the bytes behind it. -/
def codeOf (first : Nat) (more : List UInt8) : Nat :=
  more.foldl (fun n b => 64 * n + b.toNat % 64)
    (if more.isEmpty then first else first % (0x40 >>> more.length))

/-- The character at the front of some bytes, and how many bytes behind the first one it takes. -/
def frontChar (first : UInt8) (bytes : List UInt8) : Char × Nat :=
  match tail? first.toNat with
  | none => (replacement, 0)
  | some (count, least, most) =>
    let more := following count least most bytes
    (if more.length = count then Char.ofNat (codeOf first.toNat more) else replacement, more.length)

/-- The characters of some bytes, behind those that the character before has taken. -/
def charsAfter : Nat → List UInt8 → List Char
  | _, [] => []
  | taken + 1, _ :: bytes => charsAfter taken bytes
  | 0, b :: bytes => (frontChar b bytes).1 :: charsAfter (frontChar b bytes).2 bytes

/-- The characters that some bytes are read as. -/
def lossyChars (bytes : List UInt8) : List Char := charsAfter 0 bytes

end FlowSafety.Text
