import FlowSafety.Pattern.Search
import FlowSafety.Pattern.Shape
import FlowSafety.Walk.Numeric

/-!
# Refinement by guards

What a guard teaches about a value on the branch that it opens. A comparison cuts an interval, a
pattern confines a text, and an allow list leaves only its members. A pattern or a list that was not
matched teaches nothing.
-/

namespace FlowSafety

/-! ## Comparisons -/

/-- The interval where a comparison holds, and what to say about it. -/
def Interval.refined (iv : Interval) (c : Comparison) (bound : Int64) : Interval × String :=
  match c.admitted? bound with
  | some admitted => (iv.meet admitted, s!"guard value {c.symbol} {bound.toInt} holds here")
  | none => (iv, "guard does not bound the value")

/-! ## Patterns -/

/-- Note the pattern that a charset is known from. -/
def Charset.withPattern (pattern : String) : Charset → Charset
  | .format chars _ => .format chars (some pattern)
  | .masked chars _ kept unmasked => .masked chars (some pattern) kept unmasked
  | c => c

/-- The charset of a text that matches a shape. Escaped text may hold the mark that introduces an
escape, so for an encoding without an alphabet of its own the shape replaces the escaping only where
it is as strict. -/
def Charset.confined (c : Charset) (chars : CharClass) (pattern : String) : Charset :=
  let byClass := (Charset.ofClass (c.possible.inter chars)).withPattern pattern
  match c with
  | .escaped context =>
    if context.alphabet?.isNone then
      if chars.intersects context.neutralized then c
      else (Charset.ofClass chars).withPattern pattern
    else byClass
  | _ => byClass

/-- The lesser of two bounds where both are known, and else the one that is. -/
def lesserBound : Option Nat → Option Nat → Option Nat
  | some m, some n => some (min m n)
  | some m, none => some m
  | none, n => n

/-- The pattern that a known value has to contain to pass the check. -/
def anchored (pattern : String) (full : Bool) : String :=
  if full then "^(?:" ++ pattern ++ ")$" else pattern

/-- The guarantee of a text that passed a check against a pattern. Known values are filtered by the
pattern itself. -/
def TextGuarantee.matching (g : TextGuarantee) (pattern : String) (full : Bool) :
    Except PathFault (TextGuarantee × String) :=
  match g.values with
  | some values =>
    match Pattern.searcher? (anchored pattern full) with
    | some h =>
      .ok (.oneOf (values.filter h.isFoundIn), s!"known values filtered by /{pattern}/")
    | none => .error (.invalidPattern pattern)
  | none =>
    match Pattern.shape? pattern full with
    | some shape =>
      .ok
        ({ charset := g.charset.confined shape.chars pattern
           maxLength := lesserBound g.maxLength shape.maxLength },
          s!"validated against /{pattern}/")
    | none => .ok (g, s!"pattern /{pattern}/ does not confine the character set")

/-! ## Allow lists -/

/-- The guarantee of a text that is on a list. -/
def TextGuarantee.within (g : TextGuarantee) (values : TextSet) : TextGuarantee :=
  .oneOf (match g.values with | some known => known.inter values | none => values)

/-- The interval of an integer whose decimal numeral is on a list. -/
def Interval.within (iv : Interval) (values : TextSet) : Interval :=
  match TextGuarantee.hullOf (values.toList.filterMap Text.int64?) with
  | some hull => iv.meet hull
  | none => .empty

/-! ## Guards -/

/-- The value on the branch that a guard opens, and what to say about it. -/
def Branch.refine (b : Branch) (v : Value) : Except PathFault (Value × String) :=
  match b.condition, v with
  | .compare c bound, .integer iv =>
    let c := if b.outcome = .passed then c else c.negate
    let (iv, why) := iv.refined c bound
    .ok (.integer iv, why)
  | .compare _ _, .text _ => .error .comparisonOnText
  | .matchesPattern pattern full, .text g =>
    if b.outcome = .passed then (g.matching pattern full).map fun r => (.text r.1, r.2)
    else .ok (v, "validation failed on this branch, nothing learned")
  | .matchesPattern _ _, .integer _ => .error .patternOnInteger
  | .inAllowList values, v =>
    if b.outcome = .passed then
      let listed : Value := match v with
        | .text g => .text (g.within values)
        | .integer iv => .integer (iv.within values)
      .ok (listed, "value is a member of the allow-list")
    else .ok (v, "value is outside the allow-list on this branch")

end FlowSafety
