import FlowSafety.Verdict.Basic

/-!
# Loop bounds

Whether a tainted bound can make a loop run more often than a ceiling allows. A bound that no value
reaches, one that is always negative, and one with an upper bound within the ceiling are safe.

The loops of a nest multiply: its work is the product of how often each of them runs.
-/

namespace FlowSafety.LoopBound

/-- The decision on the bound of one loop; `boundingStep` is the step to name as what bounds it. -/
def check (iv : Interval) (ceiling : Nat) (boundingStep : Option Nat) : Assessment :=
  let decide (outcome : Outcome) (step : Option Nat) (explanation : String)
      (notes : List String) : Assessment :=
    { outcome := outcome
      rationale :=
        [{ step := step, operation := "loop bound check", guarantee := iv.text,
           explanation := explanation }]
      notes := notes }
  if iv.isEmpty then
    decide .safe none "unreachable: no value reaches the loop"
      ["loop bound is unreachable on this path"]
  else if iv.high < .finite 0 then
    decide .safe boundingStep "loop never executes"
      [s!"loop bound {iv.text} is always negative; the loop never executes (possible logic defect)"]
  else if iv.high ≤ .ofCount ceiling then
    decide .safe boundingStep
      s!"provably bounded: at most {iv.high.text} iterations, ceiling {ceiling}" []
  else if iv.high = .posInf then
    decide .unsafeFlow none "unbounded: no step establishes a finite upper bound" []
  else
    decide .unsafeFlow boundingStep
      s!"exceeds ceiling: up to {iv.high.text} iterations, ceiling {ceiling}" []

/-- The decision on the loop bound that a path ends in, if it is an integer. -/
def checkSummary? (s : Summary) (ceiling : Nat) : Option Assessment :=
  s.value.interval?.map fun iv => check iv ceiling s.boundingStep

/-- The decisions on the loops of a nest, from a depth on. -/
def checkEach (ceiling : Nat) (depth : Nat) : List Interval → Assessment
  | [] => { outcome := .safe }
  | iv :: ivs =>
    let single := check iv ceiling none
    let rename (r : Reason) : Reason := { r with operation := s!"loop at depth {depth}" }
    let named := { single with rationale := single.rationale.map rename }
    named.merge (checkEach ceiling (depth + 1) ivs)

/-- How much work a nest does. -/
def work (bounds : List Interval) : Interval :=
  bounds.foldl (fun total iv => total.mul iv.iterations) (.constant 1)

/-- The decision on the work of a nest. -/
def checkWork (bounds : List Interval) (ceiling : Nat) : Assessment :=
  let total := work bounds
  let reason (explanation : String) : Reason :=
    { step := none, operation := s!"loop nest of depth {bounds.length}", guarantee := total.text,
      explanation := explanation }
  if total.isEmpty then { outcome := .safe, rationale := [reason "nest is unreachable"] }
  else if total.high ≤ .ofCount ceiling then
    { outcome := .safe
      rationale := [reason s!"total work at most {total.high.text}, ceiling {ceiling}"] }
  else
    { outcome := .unsafeFlow
      rationale := [reason s!"total work up to {total.high.text} exceeds ceiling {ceiling}"] }

/-- The decision on a nest, given the bounds of its loops from the outermost on. -/
def checkNest (bounds : List Interval) (ceiling : Nat) : Assessment :=
  (checkEach ceiling 0 bounds).merge (checkWork bounds ceiling)

end FlowSafety.LoopBound
