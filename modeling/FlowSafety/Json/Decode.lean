import FlowSafety.Json.Parser
import FlowSafety.Size

/-!
# Decoding JSON

Readers of the shapes that persisted values have.

* A record is an object, or the array of its fields in order. Members of other names are passed
  over; a field that occurs twice is refused.
* A choice is the name of an alternative, or an object whose only member names the alternative and
  holds its argument. An alternative without an argument may be written with a null one.
* An alternative with named fields is a record. In a document it may be an array too; in a message
  it has to be an object.

All readers answer `none` for what they do not accept.
-/

namespace FlowSafety.Json

/-- Where a value comes from. -/
inductive Form where
  /-- A text of its own: a file, or a field that holds JSON. -/
  | document
  /-- A part of a message that was read as a whole. -/
  | message
deriving DecidableEq, Repr

/-! ## Scalars -/

def bool? : Json → Option Bool
  | .bool value => some value
  | _ => none

def text? : Json → Option String
  | .string content => unescape content
  | _ => none

/-- A string of one character. -/
def char? (j : Json) : Option Char :=
  (text? j).bind fun s =>
    match s.toList with
    | [c] => some c
    | _ => none

/-- A whole number written without sign, fraction and exponent, up to a limit. -/
def nat? (limit : Nat) : Json → Option Nat
  | .number literal =>
    if literal.toList.all Char.isDigit then
      let n := literal.toList.foldl (fun n c => 10 * n + (c.toNat - 48)) 0
      if n ≤ limit then some n else none
    else none
  | _ => none

/-- A count of 64 bits. -/
def size? (j : Json) : Option Nat := nat? Size.largest j

/-- An integer of 64 bits written without fraction and exponent. There is no negative zero. -/
def int64? : Json → Option Int64
  | .number literal =>
    match literal.toList with
    | '-' :: digits =>
      (nat? 0x8000000000000000 (.number (String.ofList digits))).bind fun n =>
        if n = 0 then none else some (Int64.ofInt (-n))
    | _ => (nat? 0x7FFFFFFFFFFFFFFF (.number literal)).map fun n => Int64.ofInt n
  | _ => none

/-! ## Lists and options -/

/-- The values of all items, if each has one. -/
def all? {α : Type} (f : Json → Option α) : List Json → Option (List α)
  | [] => some []
  | item :: items => (f item).bind fun a => (all? f items).map (a :: ·)

def list? {α : Type} (f : Json → Option α) : Json → Option (List α)
  | .array items => all? f items
  | _ => none

/-- Two items. -/
def pair? {α β : Type} (f : Json → Option α) (g : Json → Option β) : Json → Option (α × β)
  | .array [a, b] => (f a).bind fun a => (g b).map fun b => (a, b)
  | _ => none

/-- Null, or a value. -/
def nullable? {α : Type} (f : Json → Option α) : Json → Option (Option α)
  | .null => some none
  | j => (f j).map some

/-! ## Records -/

/-- A field of a record that is being read. -/
inductive Field where
  | given (value : Json)
  /-- No member has its name. -/
  | unnamed
  /-- The array ends before its place. -/
  | beyond

namespace Field

/-- A field that has to be there. -/
def required {α : Type} (f : Json → Option α) : Field → Option α
  | .given j => f j
  | _ => none

/-- A field that may be null; an object may leave it out. -/
def optional {α : Type} (f : Json → Option α) : Field → Option (Option α)
  | .given j => nullable? f j
  | .unnamed => some none
  | .beyond => none

/-- A field with a value to fall back on where it is left out. -/
def withDefault {α : Type} (fallback : α) (f : Json → Option α) : Field → Option α
  | .given j => f j
  | _ => some fallback

end Field

/-- The members of one name. -/
def membersNamed (name : String) (members : List (String × Json)) : List Json :=
  (members.filter fun m => m.1 = name).map (·.2)

/-- The members of an object with their names unescaped, if all of them stand for a text. -/
def named? : List (String × Json) → Option (List (String × Json))
  | [] => some []
  | (name, value) :: members =>
    (unescape name).bind fun name => (named? members).map ((name, value) :: ·)

/-- The field of a name, unless it occurs twice. -/
def fieldNamed? (members : List (String × Json)) (name : String) : Option Field :=
  match membersNamed name members with
  | [] => some .unnamed
  | [j] => some (.given j)
  | _ => none

/-- The fields of the given names, if no name occurs twice. -/
def fieldsNamed? (members : List (String × Json)) : List String → Option (List Field)
  | [] => some []
  | name :: names =>
    (fieldNamed? members name).bind fun field => (fieldsNamed? members names).map (field :: ·)

/-- The first so many fields of an array. -/
def fieldsInOrder : Nat → List Json → List Field
  | 0, _ => []
  | n + 1, [] => .beyond :: fieldsInOrder n []
  | n + 1, item :: items => .given item :: fieldsInOrder n items

/-- The fields of a record in the order of their names. -/
def record? (names : List String) : Json → Option (List Field)
  | .object members => (named? members).bind fun members => fieldsNamed? members names
  | .array items =>
    if items.length ≤ names.length then some (fieldsInOrder names.length items) else none
  | _ => none

/-- The fields of an alternative. -/
def recordIn? (form : Form) (names : List String) (j : Json) : Option (List Field) :=
  match form, j with
  | .message, .array _ => none
  | _, j => record? names j

/-! ## Choices -/

/-- The name of an alternative and its argument. -/
def choice? : Json → Option (String × Option Json)
  | .string content => (unescape content).map fun name => (name, none)
  | .object [(name, argument)] => (unescape name).map fun name => (name, some argument)
  | _ => none

/-- The alternative of a choice without arguments. -/
def unitChoice? {α : Type} (alternatives : List α) (nameOf : α → String) (j : Json) : Option α :=
  (choice? j).bind fun c =>
    match c.2 with
    | none | some .null => alternatives.find? fun a => nameOf a = c.1
    | _ => none

end FlowSafety.Json
