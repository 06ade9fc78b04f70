import FlowSafety.Json.Token

/-!
# Reading JSON

A value is read from the tokens of its text by descent. Each step down takes a token, so the number
of tokens bounds the depth.
-/

namespace FlowSafety.Json

mutual

/-- The value at the front of some tokens, and the tokens behind it. -/
def value? : Nat → List Token → Option (Json × List Token)
  | _, .null :: ts => some (.null, ts)
  | _, .bool b :: ts => some (.bool b, ts)
  | _, .number literal :: ts => some (.number literal, ts)
  | _, .string content :: ts => some (.string content, ts)
  | _, .openBracket :: .closeBracket :: ts => some (.array [], ts)
  | _, .openBrace :: .closeBrace :: ts => some (.object [], ts)
  | depth + 1, .openBracket :: ts => (items? depth ts).map fun r => (.array r.1, r.2)
  | depth + 1, .openBrace :: ts => (members? depth ts).map fun r => (.object r.1, r.2)
  | _, _ => none

/-- The items of an array, one at least, up to the closing bracket. -/
def items? : Nat → List Token → Option (List Json × List Token)
  | 0, _ => none
  | depth + 1, ts =>
    (value? depth ts).bind fun r =>
      match r.2 with
      | .closeBracket :: rest => some ([r.1], rest)
      | .comma :: rest => (items? depth rest).map fun s => (r.1 :: s.1, s.2)
      | _ => none

/-- The members of an object, one at least, up to the closing brace. -/
def members? : Nat → List Token → Option (List (String × Json) × List Token)
  | 0, _ => none
  | depth + 1, ts =>
    match ts with
    | .string name :: .colon :: ts =>
      (value? depth ts).bind fun r =>
        match r.2 with
        | .closeBrace :: rest => some ([(name, r.1)], rest)
        | .comma :: rest => (members? depth rest).map fun s => ((name, r.1) :: s.1, s.2)
        | _ => none
    | _ => none

end

/-- The value that a text holds. -/
def parse? (text : String) : Option Json :=
  (Token.lex text.toList).bind fun ts =>
    match value? (ts.length + 1) ts with
    | some (j, []) => some j
    | _ => none

/-! ## Repeated members -/

/-- Add a member in front of others, unless one of them has its name. -/
def addBefore (member : String × Json) (members : List (String × Json)) : List (String × Json) :=
  if members.any fun other => unescape other.1 = unescape member.1 then members
  else member :: members

mutual

/-- The value in which, of all members of one name, only the last is left. -/
def lastOfEach : Json → Json
  | .array items => .array (lastOfEachItems items)
  | .object members => .object (lastOfEachMembers members)
  | j => j

def lastOfEachItems : List Json → List Json
  | [] => []
  | item :: items => lastOfEach item :: lastOfEachItems items

def lastOfEachMembers : List (String × Json) → List (String × Json)
  | [] => []
  | (name, value) :: members => addBefore (name, lastOfEach value) (lastOfEachMembers members)

end

end FlowSafety.Json
