import FlowSafety.Charset.Basic

/-!
# Sinks

The sensitive operations that a flow can end in. A string sink forbids a set of raw characters;
`Sink.check` decides whether a charset proves them absent, and says why.

Injection is one axis and disclosure another: a sink may also be a place where sensitive data
becomes visible to someone.
-/

namespace FlowSafety

/-- The kind of sensitive operation that a flow ends in. -/
inductive Sink where
  /-- The upper bound of a loop. -/
  | loopBound
  | htmlBody
  | htmlAttribute
  | scriptString
  | urlComponent
  | cssValue
  | logRecord
  | rawFileWrite
deriving DecidableEq, Repr

namespace Sink

def all : List Sink :=
  [.loopBound, .htmlBody, .htmlAttribute, .scriptString, .urlComponent, .cssValue, .logRecord,
    .rawFileWrite]

def name : Sink → String
  | .loopBound => "loop_bound"
  | .htmlBody => "html_body"
  | .htmlAttribute => "html_attribute"
  | .scriptString => "script_string"
  | .urlComponent => "url_component"
  | .cssValue => "css_value"
  | .logRecord => "log_record"
  | .rawFileWrite => "raw_file_write"

/-- Whether the sink takes text. -/
def takesText (s : Sink) : Bool := s ≠ .loopBound

/-- The sinks where data becomes visible to someone, unless a policy says otherwise. -/
def disclosing : List Sink := [.htmlBody, .htmlAttribute, .logRecord, .rawFileWrite]

/-- The raw characters that a sink must not receive, if it has any. -/
def forbidden? : Sink → Option CharClass
  | .htmlBody | .htmlAttribute => some (.ofText "<>&\"'")
  | .scriptString => some (.ofText "<>&\"'\\\n\r")
  | .urlComponent => some (CharClass.compl (.union .urlUnreserved (.ofText "%+")))
  | .cssValue => some (.ofText "<>&\"'()\x7b\x7d;/\n\r")
  | .loopBound | .logRecord | .rawFileWrite => none

/-- Check a charset against forbidden characters: the reason why it proves them absent, or the
reason why it does not. -/
def check (forbidden : CharClass) : Charset → Except String String
  | .unconstrained => .error "no guarantee was established for the value"
  | .format chars _ =>
    let leaked := chars.inter forbidden
    if leaked.isEmpty then .ok ("format " ++ chars.text ++ " avoids every forbidden character")
    else .error ("format may produce " ++ leaked.text)
  | .masked chars _ kept unmasked =>
    let leaked := chars.inter forbidden
    if leaked.isEmpty then
      (check forbidden unmasked).mapError fun why =>
        "masked value keeps up to " ++ toString kept ++ " original characters and " ++ why
    else .error ("format may produce " ++ leaked.text)
  | .escaped context =>
    let leaked := (Charset.escaped context).possible.inter forbidden
    if leaked.isEmpty then
      .ok (context.name ++ " escaping neutralizes every forbidden character")
    else .error (context.name ++ " escaping leaves " ++ leaked.text ++ " unneutralized")
  | other =>
    let leaked := other.possible.inter forbidden
    if leaked.isEmpty then .ok (other.text ++ " contains only permitted characters")
    else .error (other.text ++ " may contain " ++ leaked.text)

end Sink

end FlowSafety
