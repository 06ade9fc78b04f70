import FlowSafety.Proofs.Catalogue.Registered
import FlowSafety.Proofs.Interval.Order
import FlowSafety.Proofs.Numeric.LoopBound

/-!
# Operators that cap a value

A minimum with a constant, a limit from above, a mask and a remainder cap their result, whatever the
value is that they are applied to. Guards only ever lower an upper end, so behind such an operator
the cap holds on all levels, in whatever branches the guards are, and a loop bound that it is within
is safe.

* `Interval.IsCapped` — no member of the interval is above a limit
* `Operator.Caps` — the operators and operands that cap their result
* `Operator.Caps.evaluate` — they do, on any value
* `Walk.capped_of_steps` — the cap holds behind the guards that follow
* `classify_safe_of_caps` — a ceiling from the cap on is kept
-/

namespace FlowSafety

/-! ## Capped intervals -/

namespace Interval

variable {a b iv iv' : Interval} {low high : Bound} {limit : Int64}

/-- The interval is empty or ends at the limit or below it. An interval that was read in may be
inverted with a high upper end; that one is empty, so it is capped too. -/
def IsCapped (limit : Int64) (iv : Interval) : Prop :=
  iv.isEmpty = true ∨ iv.high ≤ .finite limit

theorem isCapped_empty : empty.IsCapped limit := Or.inl rfl

theorem isCapped_constant : (constant limit).IsCapped limit := Or.inr (le_refl _)

theorem isCapped_ofBounds (h : high ≤ .finite limit) : (ofBounds low high).IsCapped limit := by
  rcases lt_or_ge high low with hlt | hle
  · rw [ofBounds_of_lt hlt]
    exact isCapped_empty
  · rw [ofBounds_of_le hle]
    exact Or.inr (Bound.asHigh_mono h)

/-- The lesser of two upper ends is capped if one of the intervals is. An empty operand makes the
result empty, so it does not matter that its upper end says nothing. -/
theorem isCapped_ofBounds_min (h : a.IsCapped limit ∨ b.IsCapped limit) :
    (if a.isEmpty || b.isEmpty then empty
      else ofBounds low (min a.high b.high)).IsCapped limit := by
  split
  · exact isCapped_empty
  · next hempty =>
    rw [Bool.or_eq_true, not_or] at hempty
    rcases h with ha | hb
    · exact isCapped_ofBounds ((min_le_left _ _).trans (ha.resolve_left hempty.1))
    · exact isCapped_ofBounds ((min_le_right _ _).trans (hb.resolve_left hempty.2))

theorem IsCapped.meet (h : a.IsCapped limit) (b : Interval) : (a.meet b).IsCapped limit :=
  isCapped_ofBounds_min (Or.inl h)

theorem isCapped_minimum (h : a.IsCapped limit ∨ b.IsCapped limit) :
    (a.minimum b).IsCapped limit :=
  isCapped_ofBounds_min h

theorem isCapped_foldl_minimum {ivs : List Interval} (h : ∃ iv ∈ a :: ivs, iv.IsCapped limit) :
    (ivs.foldl minimum a).IsCapped limit := by
  induction ivs generalizing a with
  | nil =>
    obtain ⟨iv, hmem, hiv⟩ := h
    obtain rfl := List.mem_singleton.mp hmem
    exact hiv
  | cons b ivs ih =>
    rw [List.foldl_cons]
    obtain ⟨iv, hmem, hiv⟩ := h
    simp only [List.mem_cons] at hmem
    -- a capped interval among the first two caps their minimum, which takes their place
    rcases hmem with rfl | rfl | hmem
    · exact ih ⟨_, List.mem_cons_self, isCapped_minimum (Or.inl hiv)⟩
    · exact ih ⟨_, List.mem_cons_self, isCapped_minimum (Or.inr hiv)⟩
    · exact ih ⟨iv, List.mem_cons_of_mem _ hmem, hiv⟩

theorem isCapped_clamp : (a.clamp b (constant limit)).IsCapped limit :=
  isCapped_minimum (Or.inr isCapped_constant)

/-- A mask caps a conjunction from either side. -/
theorem isCapped_bitAnd (h : a.mask? = some limit ∨ b.mask? = some limit) :
    (a.bitAnd b).IsCapped limit := by
  unfold bitAnd
  split
  · exact isCapped_empty
  · rcases h with ha | hb
    · rw [ha]
      cases b.mask? with
      | none => exact isCapped_ofBounds (le_refl _)
      | some n => exact isCapped_ofBounds (min_le_left _ _)
    · rw [hb]
      cases a.mask? with
      | none => exact isCapped_ofBounds (le_refl _)
      | some m => exact isCapped_ofBounds (min_le_right _ _)

theorem mask?_constant (h : 0 ≤ limit.toInt) : (constant limit).mask? = some limit := by
  have hempty : (constant limit).isEmpty = false := decide_eq_false fun hlt => hlt (le_refl _)
  have hzero : (.finite 0 : Bound) ≤ (constant limit).low := h
  unfold mask? isNonNegative
  rw [hempty, decide_eq_true hzero]
  rfl

/-- A remainder is less than its divisor. -/
theorem isCapped_rem {divisor : Int64} (hlimit : 0 ≤ limit.toInt)
    (hdivisor : divisor.toInt = limit.toInt + 1) :
    (a.rem (constant divisor)).IsCapped limit := by
  have hconstant : (constant divisor).constant? = some divisor := by simp [constant?, constant]
  unfold rem
  split
  · exact isCapped_empty
  · simp only [hconstant]
    rw [if_pos (by omega), hdivisor, Int.add_sub_cancel]
    refine isCapped_ofBounds ?_
    have hlow := limit.minValue_le_toInt
    have hhigh := limit.toInt_le
    rw [Bound.ofInt, if_neg (by omega), if_neg (by omega), Int64.ofInt_toInt]

/-! ## Guards -/

/-- A guard keeps the upper end or lowers it. -/
theorem IsCapped.of_refinedBy {branch : Branch} (hiv : iv.IsCapped limit)
    (h : iv.RefinedBy branch iv') : iv'.IsCapped limit := by
  cases h with
  | @compared c bound _ =>
    unfold refined
    split
    · exact hiv.meet _
    · exact hiv
  | @listed values _ _ =>
    unfold within
    split
    · exact hiv.meet _
    · exact isCapped_empty
  | unlisted _ _ => exact hiv

end Interval

/-- The value is a capped integer. -/
def Value.IsCapped (limit : Int64) : Value → Prop
  | .integer iv => iv.IsCapped limit
  | .text _ => False

theorem Branch.isCapped_refine {b : Branch} {v v' : Value} {why : String} {limit : Int64}
    (h : b.refine v = .ok (v', why)) (hv : v.IsCapped limit) : v'.IsCapped limit := by
  cases v with
  | text g => exact hv.elim
  | integer iv =>
    obtain ⟨iv', rfl, hrefined⟩ := Branch.refine_integer_eq_ok h
    exact Interval.IsCapped.of_refinedBy hv hrefined

/-! ## Capping operators -/

namespace Operator

variable {o : Operator} {operand : Operand} {operands : List Operand} {inputs : List Value}
  {v : Value} {iv : Interval} {ivs : List Interval} {w : Walk} {index : Nat} {limit : Int64}

/-- The operator caps its result by what it has among its operands. -/
inductive Caps (limit : Int64) : Operator → List Operand → Prop
  | min {operands : List Operand} : .const limit ∈ operands → Caps limit .min operands
  | clamp {operands : List Operand} : operands.getLast? = some (.const limit) →
      Caps limit .clamp operands
  | bitAnd {operands : List Operand} : 0 ≤ limit.toInt → .const limit ∈ operands →
      Caps limit .bitAnd operands
  | rem {operands : List Operand} {divisor : Int64} : 0 ≤ limit.toInt →
      divisor.toInt = limit.toInt + 1 → operands.getLast? = some (.const divisor) →
      Caps limit .rem operands

theorem Caps.operands_ne_nil (h : o.Caps limit operands) : operands ≠ [] := by
  rintro rfl
  cases h <;> simp_all

/-! ### Operands -/

/-- Completing the operands adds one in front of them at most. -/
theorem completedOperands_eq (o : Operator) (operands : List Operand) :
    o.completedOperands operands = operands ∨
      o.completedOperands operands = .current :: operands := by
  unfold completedOperands
  split
  · exact Or.inl rfl
  · split
    · exact Or.inr rfl
    · exact Or.inl rfl
  · split
    · exact Or.inr rfl
    · exact Or.inl rfl

theorem mem_completedOperands (o : Operator) (h : operand ∈ operands) :
    operand ∈ o.completedOperands operands := by
  rcases completedOperands_eq o operands with he | he
  · rwa [he]
  · rw [he]
    exact List.mem_cons_of_mem _ h

theorem getLast?_completedOperands (o : Operator) (h : operands.getLast? = some operand) :
    (o.completedOperands operands).getLast? = some operand := by
  rcases completedOperands_eq o operands with he | he
  · rwa [he]
  · rw [he, List.getLast?_cons, h]
    rfl

/-- The intervals are the values of the operands. -/
def ReadAs (w : Walk) (index : Nat) (v : Value) : List Operand → List Interval → Prop :=
  List.Forall₂ fun operand iv => w.operandValue index v operand = .ok (.integer iv)

theorem ReadAs.mem_constant (h : ReadAs w index v operands ivs) (hmem : .const limit ∈ operands) :
    Interval.constant limit ∈ ivs := by
  obtain ⟨iv, hiv, hvalue⟩ := exists_of_forall₂_of_mem_left h hmem
  cases hvalue
  exact hiv

theorem ReadAs.last_eq_constant (h : ReadAs w index v operands (ivs ++ [iv]))
    (hlast : operands.getLast? = some (.const limit)) : iv = .constant limit := by
  obtain ⟨init, rfl⟩ := List.getLast?_eq_some_iff.mp hlast
  have hrev := List.forall₂_reverse_iff.mpr h
  rw [List.reverse_append, List.reverse_append] at hrev
  cases hrev with
  | cons hvalue _ =>
    cases hvalue
    rfl

/-! ### Results -/

/-- A capping operator is evaluated on the intervals of its completed operands. -/
theorem Caps.evaluate_eq_ok (hcaps : o.Caps limit operands)
    (hinputs : operands.mapM (w.operandValue index v) = .ok inputs)
    (h : o.evaluate inputs v = .ok iv) :
    ∃ ivs, ReadAs w index v (o.completedOperands operands) ivs ∧ o.onIntervals ivs = .ok iv := by
  have hvalues := forall₂_completed (o := o) hinputs
  unfold evaluate at h
  obtain ⟨_, -, h⟩ := bind_eq_ok.mp h
  have hivs : ∃ ivs, intervals o.name (o.completed inputs v) = .ok ivs ∧
      o.onIntervals ivs = .ok iv := by
    cases hcaps <;> exact bind_eq_ok.mp h
  obtain ⟨ivs, hivs, hon⟩ := hivs
  exact ⟨ivs, forall₂_of_intervals hivs hvalues, hon⟩

theorem onIntervals_clamp (h : onIntervals .clamp ivs = .ok iv) :
    ∃ a low high, ivs = [a, low, high] ∧ iv = a.clamp low high := by
  rcases ivs with _ | ⟨a, _ | ⟨low, _ | ⟨high, _ | _⟩⟩⟩
  · contradiction
  · contradiction
  · contradiction
  · exact ⟨a, low, high, rfl, (Except.ok.inj h).symm⟩
  · contradiction

theorem onIntervals_bitAnd (h : onIntervals .bitAnd ivs = .ok iv) :
    ∃ a b, ivs = [a, b] ∧ iv = a.bitAnd b := by
  rcases ivs with _ | ⟨a, _ | ⟨b, _ | _⟩⟩
  · contradiction
  · contradiction
  · exact ⟨a, b, rfl, (Except.ok.inj h).symm⟩
  · contradiction

theorem onIntervals_rem (h : onIntervals .rem ivs = .ok iv) :
    ∃ a b, ivs = [a, b] ∧ iv = a.rem b := by
  rcases ivs with _ | ⟨a, _ | ⟨b, _ | _⟩⟩
  · contradiction
  · contradiction
  · exact ⟨a, b, rfl, (Except.ok.inj h).symm⟩
  · contradiction

/-- A capping operator caps its result, whatever value it is applied to. -/
theorem Caps.evaluate (hcaps : o.Caps limit operands)
    (hinputs : operands.mapM (w.operandValue index v) = .ok inputs)
    (h : o.evaluate inputs v = .ok iv) : iv.IsCapped limit := by
  obtain ⟨ivs, hread, hon⟩ := hcaps.evaluate_eq_ok hinputs h
  cases hcaps with
  | min hmem =>
    obtain ⟨a, rest, rfl, rfl⟩ := foldTwo_eq_ok hon
    exact Interval.isCapped_foldl_minimum
      ⟨_, hread.mem_constant (mem_completedOperands _ hmem), Interval.isCapped_constant⟩
  | clamp hlast =>
    obtain ⟨a, low, high, rfl, rfl⟩ := onIntervals_clamp hon
    have hread' : ReadAs w index v _ ([a, low] ++ [high]) := hread
    rw [hread'.last_eq_constant (getLast?_completedOperands _ hlast)]
    exact Interval.isCapped_clamp
  | bitAnd hlimit hmem =>
    obtain ⟨a, b, rfl, rfl⟩ := onIntervals_bitAnd hon
    have hmask := Interval.mask?_constant hlimit
    have hmem' := hread.mem_constant (mem_completedOperands _ hmem)
    simp only [List.mem_cons, List.not_mem_nil, or_false] at hmem'
    rcases hmem' with rfl | rfl
    · exact Interval.isCapped_bitAnd (Or.inl hmask)
    · exact Interval.isCapped_bitAnd (Or.inr hmask)
  | rem hlimit hdivisor hlast =>
    obtain ⟨a, b, rfl, rfl⟩ := onIntervals_rem hon
    have hread' : ReadAs w index v _ ([a] ++ [b]) := hread
    rw [hread'.last_eq_constant (getLast?_completedOperands _ hlast)]
    exact Interval.isCapped_rem hlimit hdivisor

end Operator

/-! ## Walks -/

/-- The operation reads the value and narrows it at most: a guard or a sink. -/
def Operation.Narrows : Operation → Prop
  | .guard _ | .sink _ => True
  | _ => False

namespace Walk

variable {p : Path} {c : Catalogue} {w w' : Walk} {index : Nat} {before after : List Step}
  {s : Step} {o o' : Operator} {operands : List Operand} {limit : Int64}

/-- All levels hold capped integers. -/
def IsCapped (limit : Int64) (w : Walk) : Prop := ∀ l ∈ w.levels, l.value.IsCapped limit

/-- A step with a capping operator caps all levels, whatever they were. -/
theorem isCapped_step_of_caps (h : w.step p c index s = .ok w') (hop : s.op = .numeric o operands)
    (hmeans : c.Means o o') (hcaps : o'.Caps limit operands) : w'.IsCapped limit := by
  intro l' hl'
  have htarget := hmeans.numericTarget index
  rcases step_values h hl' with ⟨src, hsource, -⟩ | ⟨l, -, hrenew⟩
  · rw [hop] at hsource
    contradiction
  · rw [hop] at hrenew
    generalize l'.value = v' at hrenew ⊢
    cases hrenew with
    | forgottenNumber hunknown =>
      cases htarget.symm.trans hunknown
    | computed hknown hinputs hiv =>
      obtain rfl := Except.ok.inj (htarget.symm.trans hknown)
      have hcurrent : operandsOrCurrent operands = operands := by
        simp [operandsOrCurrent, hcaps.operands_ne_nil]
      rw [hcurrent] at hinputs
      exact hcaps.evaluate hinputs hiv

/-- A guard or a sink keeps the cap on all levels, those that a branch adds included. -/
theorem IsCapped.step (hw : w.IsCapped limit) (h : w.step p c index s = .ok w')
    (hop : s.op.Narrows) : w'.IsCapped limit := by
  intro l' hl'
  rcases step_values h hl' with ⟨src, hsource, -⟩ | ⟨l, hl, hrenew⟩
  · rw [hsource] at hop
    exact hop.elim
  · have hv := hw l hl
    generalize s.op = op at hop hrenew
    generalize l'.value = v' at hrenew ⊢
    cases hrenew with
    | beneath => exact hv
    | entered _ hrefine => exact Branch.isCapped_refine hrefine hv
    | sunk => exact hv
    | _ => exact hop.elim

/-- Behind a capping operator the cap holds as long as only guards follow. -/
theorem isCapped_of_steps (hw : Reached p c (before ++ s :: after) w)
    (hop : s.op = .numeric o operands) (hmeans : c.Means o o') (hcaps : o'.Caps limit operands)
    (hafter : ∀ t ∈ after, t.op.Narrows) : w.IsCapped limit := by
  induction after using List.reverseRecOn generalizing w with
  | nil =>
    obtain ⟨w₀, -, hstep⟩ := hw.of_concat
    exact isCapped_step_of_caps hstep hop hmeans hcaps
  | append_singleton after t ih =>
    rw [← List.cons_append, ← List.append_assoc] at hw
    obtain ⟨w₀, hw₀, hstep⟩ := hw.of_concat
    have hcapped := ih hw₀ fun t ht => hafter t (List.mem_append_left _ ht)
    exact hcapped.step hstep (hafter t (by simp))

end Walk

/-! ## Verdicts -/

theorem Classifier.assess_integer {c : Classifier} {s : Summary} {iv : Interval}
    (hsink : s.sink = some .loopBound) (hvalue : s.value = .integer iv) :
    c.assess s = .ok (LoopBound.check iv c.ceiling s.boundingStep) := by
  simp [Classifier.assess, hsink, Sink.takesText, LoopBound.checkSummary?, hvalue,
    Value.interval?]

/-- An interval is within every ceiling from its cap on. A cap below zero is within all of them. -/
theorem LoopBound.check_safe_of_isCapped {iv : Interval} {limit : Int64} {ceiling : Nat}
    {boundingStep : Option Nat} (h : iv.IsCapped limit) (hceiling : limit.toInt ≤ ceiling) :
    (check iv ceiling boundingStep).outcome = .safe := by
  rw [check_outcome_safe]
  rcases h with hempty | hhigh
  · exact Or.inl hempty
  · refine Or.inr (Or.inr (hhigh.trans ?_))
    rw [Bound.ofCount_eq]
    show limit.toInt ≤ (Int64.ofInt _).toInt
    rw [Bound.toInt_ofCount]
    have hle := limit.toInt_le
    omega

/-- A path to a loop bound that has a capping operator, directly or under an alias, and only guards
behind it, is safe for every ceiling from the cap on. What stands before the operator does not
matter. -/
theorem classify_safe_of_caps {c : Classifier} {p : Path} {summary : Summary}
    {before after : List Step} {s : Step} {o o' : Operator} {operands : List Operand}
    {limit : Int64} (hsink : p.sink? = some .loopBound) (hsummary : c.summarize p = .ok summary)
    (hsteps : p.steps = before ++ s :: after) (hop : s.op = .numeric o operands)
    (hmeans : c.catalogue.Means o o') (hcaps : o'.Caps limit operands)
    (hafter : ∀ t ∈ after, t.op.Narrows) (hceiling : max limit.toInt 1 ≤ c.ceiling) :
    (c.classify p).outcome = .safe := by
  obtain ⟨w, hw, l, hl, hvalue, -⟩ := Path.exists_level_of_summarize hsummary
  rw [hsteps] at hw
  have hcapped := Walk.isCapped_of_steps hw hop hmeans hcaps hafter l hl
  rw [hvalue] at hcapped
  cases hv : summary.value with
  | text g =>
    rw [hv] at hcapped
    exact hcapped.elim
  | integer iv =>
    rw [hv] at hcapped
    refine Classifier.classify_outcome_safe.mpr
      ⟨summary, _, hsummary, Classifier.assess_integer ?_ hv, ?_⟩
    · exact Classifier.summarize_sink hsummary hsink
    · exact LoopBound.check_safe_of_isCapped hcapped (by omega)

/-- A count that is changed in unknown ways inside of a branch, and capped under an alias behind it;
the cap is checked once more. -/
def cappedBatch : Path :=
  { version := pathVersion
    branches :=
      [{ parent := none, condition := .compare .ge 0, outcome := .passed },
        { parent := none, condition := .compare .gt 1000, outcome := .failed }]
    steps :=
      [⟨.source (.ofInteger "count" .i64), none⟩, ⟨.guard 0, some 0⟩,
        ⟨.numeric (.call "roundToPage") [.current], some 0⟩,
        ⟨.numeric .add [.current, .step 0], some 0⟩,
        ⟨.numeric (.call "Math.min") [.step 2, .const 64], none⟩, ⟨.guard 1, some 1⟩,
        ⟨.sink .loopBound, none⟩] }

theorem classify_safe_cappedBatch : ((counting 64).classify cappedBatch).outcome = .safe := by
  have hsome : (((counting 64).summarize cappedBatch).toOption.map fun _ => true) = some true := by
    decide +kernel
  obtain ⟨summary, hsummary, -⟩ := exists_ok_of_map_toOption hsome
  have hsteps : cappedBatch.steps = cappedBatch.steps.take 4 ++
      ⟨.numeric (.call "Math.min") [.step 2, .const 64], none⟩ :: cappedBatch.steps.drop 5 := rfl
  have hcaps : Operator.Caps 64 .min [.step 2, .const 64] := .min (by simp)
  refine classify_safe_of_caps rfl hsummary hsteps rfl (.renamed rfl) hcaps ?_ (by decide)
  intro t ht
  simp only [cappedBatch, List.drop_succ_cons, List.drop_zero, List.mem_cons, List.not_mem_nil,
    or_false] at ht
  rcases ht with rfl | rfl <;> trivial

end FlowSafety
