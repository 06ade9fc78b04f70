import FlowSafety.Catalogue.Basic

/-!
# How effects are written

Two texts for every effect: a formal one that shows the effect with its arguments, and a sentence
that explains what a transform did to a value.
-/

namespace FlowSafety

/-! ## Formal text -/

namespace EscapeContext

def label : EscapeContext → String
  | .html => "Html"
  | .htmlAttribute => "HtmlAttribute"
  | .script => "Script"
  | .url => "Url"
  | .css => "Css"

end EscapeContext

namespace DigestEncoding

def name : DigestEncoding → String
  | .hex => "hex"
  | .base64 => "base64"

def label : DigestEncoding → String
  | .hex => "Hex"
  | .base64 => "Base64"

end DigestEncoding

namespace Operator

def label : Operator → String
  | .parseInt type => s!"ParseInt({type.label})"
  | .add => "Add"
  | .sub => "Sub"
  | .mul => "Mul"
  | .div => "Div"
  | .rem => "Rem"
  | .bitAnd => "BitAnd"
  | .shr => "Shr"
  | .abs => "Abs"
  | .neg => "Neg"
  | .min => "Min"
  | .max => "Max"
  | .clamp => "Clamp"
  | .ternary => "Ternary"
  | .enumOrdinal arity => s!"EnumOrdinal \x7b arity: {arity} \x7d"
  | .enumValue values =>
    let shown := Operation.commaSeparated (values.map fun v => toString v.toInt)
    s!"EnumValue \x7b values: [{shown}] \x7d"
  | .length => "Length"
  | .call name => s!"Call({Text.quoted name})"

end Operator

namespace Effect

/-- An optional number. -/
def optionLabel : Option Nat → String
  | some n => s!"Some({n})"
  | none => "None"

def numericLabel : NumericEffect → String
  | .builtin operator => s!"Builtin({operator.label})"
  | .custom _ => "Custom(<fn>)"

def textLabel : TextEffect → String
  | .escape context => s!"Escape({context.label})"
  | .allowList values =>
    s!"AllowList(\x7b{Operation.commaSeparated (values.toList.map Text.quoted)}\x7d)"
  | .numericFormat radix => s!"NumericFormat \x7b radix: {radix} \x7d"
  | .digitFilter => "DigitFilter"
  | .mask kept filler => s!"Mask \x7b suffix: {kept}, filler: {Text.quotedChar filler} \x7d"
  | .digest encoding length =>
    s!"Digest \x7b encoding: {encoding.label}, output_len: {length} \x7d"
  | .passThrough truncate => s!"PassThrough \x7b truncate: {optionLabel truncate} \x7d"
  | .caseMap lower => s!"CaseMap \x7b lower: {lower} \x7d"
  | .custom _ => "Custom(<fn>)"

def label : Effect → String
  | .numeric effect => s!"Numeric({numericLabel effect})"
  | .text effect => s!"String({textLabel effect})"

end Effect

/-! ## Explanations -/

namespace TextEffect

/-- What a transform with this effect did. -/
def explanation (name : String) : TextEffect → String
  | .escape context => s!"{name} escapes the whole value for {context.name}"
  | .allowList values => s!"{name} maps the value onto {values.size} allowed strings"
  | .numericFormat radix => s!"{name} renders a number in radix {radix}"
  | .digitFilter => s!"{name} keeps only digits"
  | .mask _ filler =>
    s!"{name} replaces all but a suffix with '{filler}'; the suffix keeps its original characters"
  | .digest encoding length => s!"{name} outputs a {encoding.label} digest of {length} characters"
  | .passThrough _ => s!"{name} passes characters through unchanged"
  | .caseMap true => s!"{name} lower-cases every letter"
  | .caseMap false => s!"{name} upper-cases every letter"
  | .custom _ => s!"{name} applies a registered guarantee"

end TextEffect

end FlowSafety
