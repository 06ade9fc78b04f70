import FlowSafety.Json.Basic

/-!
# Printing JSON

A value on one line, and a value laid out over lines with an indentation of two blanks a level.
-/

namespace FlowSafety.Json

/-- A string or the name of a member, given its content. -/
def quoteContent (content : String) : String := "\"" ++ content ++ "\""

/-! ## One line -/

mutual

/-- The value without any blank. -/
def compact : Json → String
  | .null => "null"
  | .bool value => if value then "true" else "false"
  | .number literal => literal
  | .string content => quoteContent content
  | .array items => "[" ++ ",".intercalate (compactItems items) ++ "]"
  | .object members => "\x7b" ++ ",".intercalate (compactMembers members) ++ "\x7d"

def compactItems : List Json → List String
  | [] => []
  | item :: items => compact item :: compactItems items

def compactMembers : List (String × Json) → List String
  | [] => []
  | (name, value) :: members =>
    (quoteContent name ++ ":" ++ compact value) :: compactMembers members

end

/-! ## Several lines -/

/-- The start of a line at a level. -/
def lineStart (level : Nat) : String := "\n" ++ String.ofList (List.replicate (2 * level) ' ')

/-- Parts between brackets, each on a line of its own; none leave the brackets together. -/
def layOut (level : Nat) (opening closing : String) (parts : List String) : String :=
  if parts.isEmpty then opening ++ closing
  else
    opening ++ lineStart (level + 1) ++ ("," ++ lineStart (level + 1)).intercalate parts
      ++ lineStart level ++ closing

mutual

/-- The value laid out from a level on. -/
def prettyAt (level : Nat) : Json → String
  | .null => "null"
  | .bool value => if value then "true" else "false"
  | .number literal => literal
  | .string content => quoteContent content
  | .array items => layOut level "[" "]" (prettyItems (level + 1) items)
  | .object members => layOut level "\x7b" "\x7d" (prettyMembers (level + 1) members)

def prettyItems (level : Nat) : List Json → List String
  | [] => []
  | item :: items => prettyAt level item :: prettyItems level items

def prettyMembers (level : Nat) : List (String × Json) → List String
  | [] => []
  | (name, value) :: members =>
    (quoteContent name ++ ": " ++ prettyAt level value) :: prettyMembers level members

end

/-- The value laid out over lines. -/
def pretty (j : Json) : String := prettyAt 0 j

end FlowSafety.Json
