/-!
# JSON values

A JSON value with its numbers and strings kept as they are written. What a number or a string means
is decided by whoever reads it: a value that nobody looks at only has to be well formed, so it may
hold a number beyond every range or an escape that stands for no character.

`Json.escape` writes a text as the content of a string and `Json.unescape` reads it back.
-/

namespace FlowSafety

/-- A JSON value. -/
inductive Json where
  | null
  | bool (value : Bool)
  /-- A number, by its literal. -/
  | number (literal : String)
  /-- A string, by what stands between its quotes. -/
  | string (content : String)
  | array (items : List Json)
  /-- The members of an object in order; a name may occur more than once. -/
  | object (members : List (String × Json))
deriving Inhabited

namespace Json

/-! ## String contents -/

/-- The value of a hexadecimal digit. -/
def hexValue? (c : Char) : Option Nat :=
  let n := c.toNat
  if 48 ≤ n ∧ n < 58 then some (n - 48)
  else if 97 ≤ n ∧ n < 103 then some (n - 87)
  else if 65 ≤ n ∧ n < 71 then some (n - 55)
  else none

/-- The number that four hexadecimal digits write. -/
def unit? (a b c d : Char) : Option Nat :=
  (hexValue? a).bind fun a => (hexValue? b).bind fun b => (hexValue? c).bind fun c =>
    (hexValue? d).map fun d => ((16 * a + b) * 16 + c) * 16 + d

/-- The character that a letter after a backslash stands for. -/
def simpleEscape? (c : Char) : Option Char :=
  match c with
  | '"' => some '"'
  | '\\' => some '\\'
  | '/' => some '/'
  | 'b' => some '\x08'
  | 'f' => some '\x0c'
  | 'n' => some '\n'
  | 'r' => some '\r'
  | 't' => some '\t'
  | _ => none

def isHighSurrogate (n : Nat) : Bool := 0xD800 ≤ n && n < 0xDC00

def isLowSurrogate (n : Nat) : Bool := 0xDC00 ≤ n && n < 0xE000

/-- The character of a surrogate pair. -/
def pairValue (high low : Nat) : Char :=
  Char.ofNat (0x10000 + (high - 0xD800) * 0x400 + (low - 0xDC00))

/-- The characters that the content of a string stands for. There are none if an escape is not
complete or a surrogate stands alone. -/
def unescapeChars : List Char → Option (List Char)
  | [] => some []
  | '\\' :: 'u' :: a :: b :: c :: d :: '\\' :: 'u' :: a2 :: b2 :: c2 :: d2 :: rest =>
    (unit? a b c d).bind fun n =>
      if isHighSurrogate n then
        (unit? a2 b2 c2 d2).bind fun m =>
          if isLowSurrogate m then (unescapeChars rest).map (pairValue n m :: ·) else none
      else if isLowSurrogate n then none
      else (unescapeChars ('\\' :: 'u' :: a2 :: b2 :: c2 :: d2 :: rest)).map (Char.ofNat n :: ·)
  | '\\' :: 'u' :: a :: b :: c :: d :: rest =>
    (unit? a b c d).bind fun n =>
      if isHighSurrogate n || isLowSurrogate n then none
      else (unescapeChars rest).map (Char.ofNat n :: ·)
  | '\\' :: c :: rest =>
    (simpleEscape? c).bind fun c => (unescapeChars rest).map (c :: ·)
  | ['\\'] => none
  | c :: rest => (unescapeChars rest).map (c :: ·)

/-- The text that the content of a string stands for. -/
def unescape (content : String) : Option String :=
  (unescapeChars content.toList).map String.ofList

/-- One digit of an escape. -/
def lowerHexDigit (n : Nat) : Char := if n < 10 then Char.ofNat (48 + n) else Char.ofNat (87 + n)

/-- A character as written inside a string. -/
def escapeChar (c : Char) : List Char :=
  match c with
  | '"' => ['\\', '"']
  | '\\' => ['\\', '\\']
  | '\x08' => ['\\', 'b']
  | '\x0c' => ['\\', 'f']
  | '\n' => ['\\', 'n']
  | '\r' => ['\\', 'r']
  | '\t' => ['\\', 't']
  | c =>
    if c.toNat < 32 then
      ['\\', 'u', '0', '0', lowerHexDigit (c.toNat / 16), lowerHexDigit (c.toNat % 16)]
    else [c]

/-- The content of the string that stands for a text. -/
def escape (s : String) : String := String.ofList (s.toList.flatMap escapeChar)

/-! ## Construction -/

/-- The string that stands for a text. -/
def ofText (s : String) : Json := .string (escape s)

def ofNat (n : Nat) : Json := .number (toString n)

def ofInt (z : Int) : Json := .number (toString z)

/-- The value, or null. -/
def ofOption {α : Type} (f : α → Json) : Option α → Json
  | some a => f a
  | none => .null

def ofList {α : Type} (f : α → Json) (items : List α) : Json := .array (items.map f)

/-- An object with one member, as a variant with an argument is written. -/
def variant (name : String) (argument : Json) : Json := .object [(name, argument)]

end Json

end FlowSafety
