import FlowSafety.Unicode.Character

/-!
# Quoted text

Texts and characters between quotes. The quote itself, the backslash and the usual controls have
short escapes; any other character that cannot be shown by itself is written by its code.
-/

namespace FlowSafety.Text

/-- The digits of a number in radix 16, in lower case. -/
def hex (n : Nat) : String := String.ofList (Nat.toDigits 16 n)

/-- A character as written between two of the given quotes. -/
def escape (quote c : Char) : String :=
  if c = '\x00' then "\\0"
  else if c = '\t' then "\\t"
  else if c = '\r' then "\\r"
  else if c = '\n' then "\\n"
  else if c = '\\' then "\\\\"
  else if c = quote then "\\" ++ String.singleton c
  else if Unicode.isPrintable c then String.singleton c
  else "\\u\x7b" ++ hex c.toNat ++ "\x7d"

/-- A text between double quotes. -/
def quoted (s : String) : String := "\"" ++ String.join (s.toList.map (escape '"')) ++ "\""

/-- A character between single quotes. -/
def quotedChar (c : Char) : String := "'" ++ escape '\'' c ++ "'"

end FlowSafety.Text
