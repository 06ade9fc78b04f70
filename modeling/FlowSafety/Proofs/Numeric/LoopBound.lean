import FlowSafety.Proofs.Numeric.Guards
import FlowSafety.Proofs.Walk.Summary

/-!
# Loop bounds are sound

A run of the program along a path over integers produces one integer for every step. If the verdict
on a path that ends in a loop bound is safe, no run brings an integer above the ceiling to the loop.
Subtraction and an enumeration with `2 ^ 63` constants are left out: their intervals can miss a
result.

* `IntegerRun` — the integers of the steps in one run
* `Walk.covers_integerRun` — the walk along the path covers every run
-/

namespace FlowSafety

/-! ## Runs -/

/-- The integer is a value of the type. -/
def IntType.Holds : IntType → Int → Prop
  | .i8, z => -2 ^ 7 ≤ z ∧ z < 2 ^ 7
  | .i16, z => -2 ^ 15 ≤ z ∧ z < 2 ^ 15
  | .i32, z => -2 ^ 31 ≤ z ∧ z < 2 ^ 31
  | .i64, z => -2 ^ 63 ≤ z ∧ z < 2 ^ 63
  | .u8, z => 0 ≤ z ∧ z < 2 ^ 8
  | .u16, z => 0 ≤ z ∧ z < 2 ^ 16
  | .u32, z => 0 ≤ z ∧ z < 2 ^ 32

instance : (type : IntType) → (z : Int) → Decidable (type.Holds z)
  | .i8, _ | .i16, _ | .i32, _ | .i64, _ | .u8, _ | .u16, _ | .u32, _ =>
    inferInstanceAs (Decidable (_ ∧ _))

theorem IntType.mem_range {type : IntType} {z : Int} (h : type.Holds z) : z ∈ type.range := by
  cases type <;>
    exact Interval.mem_range h.1 (Int.le_of_lt_add_one h.2)

/-- The integers of the steps in one run along a path. The run starts with any value of the type of
the source and follows every branch that the path enters. An operation whose name is not known can
have any result. -/
inductive IntegerRun (p : Path) (c : Catalogue) : List Step → List Int64 → Prop
  | source {src : Source} {branch : Option Nat} {type : IntType} {n : Int64} :
      src.kind = .integer type → type.Holds n.toInt → IntegerRun p c [⟨.source src, branch⟩] [n]
  | guard {ss : List Step} {ns : List Int64} {id : Nat} {branch : Option Nat} {b : Branch}
      {n : Int64} : IntegerRun p c ss ns → p.branches[id]? = some b → ns.getLast? = some n →
      b.Admits n → IntegerRun p c (ss ++ [⟨.guard id, branch⟩]) (ns ++ [n])
  | unknown {ss : List Step} {ns : List Int64} {o : Operator} {operands : List Operand}
      {branch : Option Nat} {name : String} {n : Int64} : IntegerRun p c ss ns →
      Walk.numericTarget c ss.length o = .ok (.unknown name) →
      IntegerRun p c (ss ++ [⟨.numeric o operands, branch⟩]) (ns ++ [n])
  | operator {ss : List Step} {ns : List Int64} {o o' : Operator} {operands : List Operand}
      {branch : Option Nat} {n : Int64} : IntegerRun p c ss ns →
      Walk.numericTarget c ss.length o = .ok (.builtin o') →
      o'.Yields ns (o'.completedOperands (Walk.operandsOrCurrent operands)) n →
      IntegerRun p c (ss ++ [⟨.numeric o operands, branch⟩]) (ns ++ [n])
  | sink {ss : List Step} {ns : List Int64} {k : Sink} {branch : Option Nat} {n : Int64} :
      IntegerRun p c ss ns → ns.getLast? = some n →
      IntegerRun p c (ss ++ [⟨.sink k, branch⟩]) (ns ++ [n])

/-- The operation is none whose interval can miss a result: neither subtraction nor an enumeration
with more constants than the largest integer of 64 bits. -/
def Operation.IsCovering (c : Catalogue) : Operation → Prop
  | .numeric o _ => ∀ index o', Walk.numericTarget c index o = .ok (.builtin o') →
      o' ≠ .sub ∧ ∀ arity, o' = .enumOrdinal arity → arity < 2 ^ 63
  | _ => True

namespace Walk

variable {p : Path} {c : Catalogue} {w : Walk} {ss : List Step} {ns : List Int64}

/-! ## Coverage -/

/-- The value of a numeric operation covers its result in the run. -/
theorem holdsInteger_of_renews {o : Operator} {operands : List Operand} {index : Nat}
    {v v' : Value} {n : Int64} (hw : w.Covers Value.HoldsInteger ns)
    (hv : ∀ y ∈ ns.getLast?, v.HoldsInteger y)
    (hrenew : Renews p c index w (.numeric o operands) v v')
    (hop : (Operation.numeric o operands).IsCovering c)
    (hn : (∃ name, numericTarget c index o = .ok (.unknown name)) ∨
      ∃ o', numericTarget c index o = .ok (.builtin o') ∧
        o'.Yields ns (o'.completedOperands (operandsOrCurrent operands)) n) :
    v'.HoldsInteger n := by
  cases hrenew with
  | forgottenNumber _ => exact Interval.mem_top
  | @computed _ _ target inputs iv _ htarget hinputs hiv =>
    rcases hn with ⟨name, hname⟩ | ⟨o', ho', hyields⟩
    · rw [hname] at htarget
      cases htarget
      cases hiv
      exact Interval.mem_top
    · obtain ⟨hsub, harity⟩ := hop index o' ho'
      rw [ho'] at htarget
      cases htarget
      exact Operator.evaluate_sound hw hv hinputs hyields hsub harity hiv

/-- The walk along a path covers every run along it. -/
theorem covers_integerRun (hrun : IntegerRun p c ss ns) (hw : Reached p c ss w)
    (hops : ∀ s ∈ ss, s.op.IsCovering c) : w.Covers Value.HoldsInteger ns := by
  -- every case splits the walk at its last step, which is the step that the run was extended by
  induction hrun generalizing w with
  | @source src branch type n hkind hn =>
    refine .of_source hw ?_
    rw [hkind]
    exact IntType.mem_range hn
  | @guard ss ns id branch b n _ hb hlast hadmits ih =>
    obtain ⟨w₀, hw₀, hstep⟩ := hw.of_concat
    have hcov := ih hw₀ fun s hs => hops s (List.mem_append_left _ hs)
    refine hcov.step hstep ?_ ?_
    · rintro src ⟨⟩
    · intro v v' hv hrenew
      cases hrenew with
      | beneath => exact hv n hlast
      | entered hb' hrefine =>
        obtain rfl := Option.some.inj (hb.symm.trans hb')
        exact Branch.refine_sound hrefine (hv n hlast) hadmits
  | @unknown ss ns o operands branch name n _ hname ih =>
    obtain ⟨w₀, hw₀, hstep⟩ := hw.of_concat
    have hcov := ih hw₀ fun s hs => hops s (List.mem_append_left _ hs)
    refine hcov.step hstep ?_ ?_
    · rintro src ⟨⟩
    · intro v v' hv hrenew
      exact holdsInteger_of_renews hcov hv hrenew
        (hops _ (List.mem_append_right _ List.mem_cons_self)) (Or.inl ⟨name, hname⟩)
  | @operator ss ns o o' operands branch n _ ho' hyields ih =>
    obtain ⟨w₀, hw₀, hstep⟩ := hw.of_concat
    have hcov := ih hw₀ fun s hs => hops s (List.mem_append_left _ hs)
    refine hcov.step hstep ?_ ?_
    · rintro src ⟨⟩
    · intro v v' hv hrenew
      exact holdsInteger_of_renews hcov hv hrenew
        (hops _ (List.mem_append_right _ List.mem_cons_self)) (Or.inr ⟨o', ho', hyields⟩)
  | sink _ hlast ih =>
    obtain ⟨w₀, hw₀, hstep⟩ := hw.of_concat
    exact (ih hw₀ fun s hs => hops s (List.mem_append_left _ hs)).keep hlast hstep ⟨_, rfl⟩

end Walk

/-! ## Verdicts -/

theorem LoopBound.le_ceiling_of_safe {iv : Interval} {ceiling : Nat} {boundingStep : Option Nat}
    {z : Int} (h : (check iv ceiling boundingStep).outcome = .safe) (hz : z ∈ iv) :
    z ≤ ceiling := by
  have hhigh : iv.high.IsUpper z := hz.2.isUpper
  rcases check_outcome_safe.mp h with hempty | hneg | hle
  · rw [Interval.isEmpty_eq_false_of_mem hz] at hempty
    contradiction
  · have hzero : (Bound.finite 0).IsUpper z := hhigh.of_le (le_of_lt hneg)
    have hz0 : z ≤ 0 := hzero
    omega
  · have hcount : (Bound.ofCount ceiling).IsUpper z := hhigh.of_le hle
    rw [Bound.ofCount_eq, Bound.IsUpper, Bound.toInt_ofCount] at hcount
    omega

/-- Whenever the verdict at a loop bound is safe, the integer that reaches the loop is at most the
ceiling, in every run along the path. -/
theorem loopBound_le_ceiling {c : Classifier} {p : Path} {ns : List Int64} {n : Int64}
    (hsink : p.sink? = some .loopBound) (hops : ∀ s ∈ p.steps, s.op.IsCovering c.catalogue)
    (hsafe : (c.classify p).outcome = .safe) (hrun : IntegerRun p c.catalogue p.steps ns)
    (hn : ns.getLast? = some n) : n.toInt ≤ c.ceiling := by
  obtain ⟨s, _, hs, -⟩ := Classifier.classify_outcome_safe.mp hsafe
  obtain ⟨iv, hvalue, hcheck⟩ := Classifier.exists_integer_of_classify_safe hs hsink hsafe
  obtain ⟨w, hw, l, hl, hlevel, -⟩ := Path.exists_level_of_summarize hs
  have hcov := Walk.covers_integerRun hrun hw hops
  have hholds : l.value.HoldsInteger n := hcov.current n hn l hl
  rw [hlevel, hvalue] at hholds
  exact LoopBound.le_ceiling_of_safe hcheck hholds

/-- A count that is compared with a limit and then masked. -/
def maskedCount : Path :=
  { version := pathVersion
    branches := [{ parent := none, condition := .compare .le 1000, outcome := .passed }]
    steps :=
      [⟨.source (.ofInteger "count" .i64), none⟩, ⟨.guard 0, some 0⟩,
        ⟨.numeric .bitAnd [.const 15], some 0⟩, ⟨.sink .loopBound, none⟩] }

def counting (ceiling : Nat) : Classifier :=
  .ofEntries ceiling [("Math.min", .numeric (.builtin .min))]

theorem integerRun_maskedCount :
    IntegerRun maskedCount (counting 20).catalogue maskedCount.steps [1000, 1000, 8, 8] := by
  have hsource : IntegerRun maskedCount (counting 20).catalogue (maskedCount.steps.take 1) [1000] :=
    .source rfl (by decide)
  have hguard : IntegerRun maskedCount (counting 20).catalogue (maskedCount.steps.take 2)
      [1000, 1000] :=
    .guard hsource rfl rfl (Int.le_refl _)
  have hmask : IntegerRun maskedCount (counting 20).catalogue (maskedCount.steps.take 3)
      [1000, 1000, 8] :=
    .operator hguard rfl (.strict (.cons (.current rfl) (.cons .const .nil)) .bitAnd)
  exact .sink hmask rfl

theorem loopBound_maskedCount_le :
    ((counting 20).classify maskedCount).outcome = .safe ∧ (8 : Int64).toInt ≤ 20 := by
  have hsafe : ((counting 20).classify maskedCount).outcome = .safe := by
    decide +kernel
  refine ⟨hsafe, loopBound_le_ceiling rfl ?_ hsafe integerRun_maskedCount rfl⟩
  intro s hs
  simp only [maskedCount, List.mem_cons, List.not_mem_nil, or_false] at hs
  rcases hs with rfl | rfl | rfl | rfl
  · trivial
  · trivial
  · rintro _ _ ⟨⟩
    exact ⟨by decide, fun _ h => by cases h⟩
  · trivial

/-! ## The widest enumeration -/

/-- The ordinal of an enumeration with more constants than the largest integer of 64 bits. -/
def widestOrdinal : Path :=
  { version := pathVersion
    branches := []
    steps :=
      [⟨.source (.ofInteger "n" .i64), none⟩, ⟨.numeric (.enumOrdinal (2 ^ 63)) [], none⟩,
        ⟨.sink .loopBound, none⟩] }

/-- The interval of an enumeration stops at the largest integer before it counts back by one, so
it misses the last ordinal of `2 ^ 63` constants, and a loop that runs `2 ^ 63 - 1` times passes
for one that runs once less. -/
theorem exceeds_ceiling_of_widest_enumeration :
    widestOrdinal.sink? = some .loopBound ∧
      ((counting (2 ^ 63 - 2)).classify widestOrdinal).outcome = .safe ∧
      IntegerRun widestOrdinal (counting (2 ^ 63 - 2)).catalogue widestOrdinal.steps
        [0, Int64.maxValue, Int64.maxValue] ∧
      ¬ Int64.maxValue.toInt ≤ (counting (2 ^ 63 - 2)).ceiling := by
  refine ⟨rfl, by rfl, ?_, by decide⟩
  have hsource : IntegerRun widestOrdinal (counting (2 ^ 63 - 2)).catalogue
      (widestOrdinal.steps.take 1) [0] :=
    .source rfl (by decide)
  have hordinal : IntegerRun widestOrdinal (counting (2 ^ 63 - 2)).catalogue
      (widestOrdinal.steps.take 2) [0, Int64.maxValue] :=
    .operator hsource rfl (.enumOrdinal (by decide) (by decide))
  exact .sink hordinal rfl

end FlowSafety
