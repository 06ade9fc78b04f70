import FlowSafety.Proofs.Numeric.Operators
import FlowSafety.Proofs.Path.Ancestry
import FlowSafety.Proofs.Walk.Aliases
import FlowSafety.Proofs.Walk.Stack

/-!
# Faults of structure

Some faults say that a path is not put together as it should be: a step without a value before it, a
branch or a result that is not there, an operator without the operands that it works on. Validation,
and the checks made when a transform is registered, leave a walk none of them. What it can still
come upon are faults of the values: a text where an integer is needed, or too many operands.

* `PathFault.isStructural` — the faults of structure
* `Operator.Supplied` — there are as many operands as the operator looks at
* `Operator.onIntervals_total` — then it always has a result
* `Walk.step_orderly` — a step of a valid path has no fault of structure
* `no_structural_fault_of_validate` — nor has the whole walk
-/

namespace FlowSafety

/-! ## Faults -/

/-- The fault says that something is missing that validation is to make sure of. -/
def PathFault.isStructural : PathFault → Bool
  | .noValueBefore | .noValueAtEnd | .unknownBranch _ | .referenceNotEarlier _ | .unresolvedCall _
  | .noOperands _ | .tooFewOperands _ | .notOnIntervals _ => true
  | _ => false

def Fault.isStructural : Fault → Bool
  | .malformed _ cause => cause.isStructural
  | _ => false

/-- The computation ends with no fault of structure. -/
def Orderly {α : Type} (x : Except Fault α) : Prop := FaultsIn (fun f => f.isStructural = false) x

/-- The same before the step is known. -/
def OrderlyCause {α : Type} (x : Except PathFault α) : Prop :=
  FaultsIn (fun cause => cause.isStructural = false) x

theorem OrderlyCause.atStep {α : Type} {x : Except PathFault α} (h : OrderlyCause x) (index : Nat) :
    Orderly (x.mapError (.malformed index)) :=
  FaultsIn.mapError h fun _ hcause => hcause

/-! ## Operators -/

namespace Operator

variable {o : Operator} {name : String} {inputs : List Value} {v : Value} {ivs : List Interval}

/-- There are as many operands as the operator looks at: its own number, or two if it takes any. -/
def Supplied (o : Operator) (count : Nat) : Prop :=
  match o.arity? with
  | some 0 => True
  | some n => count = n
  | none => 2 ≤ count

/-- The operator works on intervals alone. -/
def IsOnIntervals : Operator → Prop
  | .parseInt _ | .length | .enumOrdinal _ | .enumValue _ | .call _ => False
  | _ => True

theorem foldTwo_total {f : Interval → Interval → Interval} (h : 2 ≤ ivs.length) :
    ∃ iv, foldTwo name f ivs = .ok iv := by
  rcases ivs with _ | ⟨a, _ | ⟨b, rest⟩⟩
  · simp at h
  · simp at h
  · exact ⟨_, rfl⟩

/-- An operator on intervals has a result on as many intervals as it looks at. -/
theorem onIntervals_total (ho : o.IsOnIntervals) (h : o.Supplied ivs.length) :
    ∃ iv, o.onIntervals ivs = .ok iv := by
  cases o with
  | add | sub | mul | div | rem | bitAnd | shr =>
    obtain ⟨a, b, rfl⟩ := List.length_eq_two.mp h
    exact ⟨_, rfl⟩
  | abs | neg =>
    obtain ⟨a, rfl⟩ := List.length_eq_one_iff.mp h
    exact ⟨_, rfl⟩
  | clamp =>
    obtain ⟨a, low, high, rfl⟩ := List.length_eq_three.mp h
    exact ⟨_, rfl⟩
  | min | max | ternary => exact foldTwo_total h
  | parseInt | length | enumOrdinal | enumValue | call => exact ho.elim

theorem length_of_intervals (h : intervals name inputs = .ok ivs) :
    ivs.length = inputs.length := by
  induction inputs generalizing ivs with
  | nil =>
    cases h
    rfl
  | cons u inputs ih =>
    cases u with
    | text g => contradiction
    | integer iv =>
      obtain ⟨rest, hrest, rfl⟩ := map_eq_ok.mp h
      rw [List.length_cons, List.length_cons, ih hrest]

/-- Completing and counting the operands supplies the operator, as soon as there is one at all. -/
theorem supplied_of_checkCount (hinputs : inputs ≠ [])
    (h : o.checkCount (o.completed inputs v) = .ok ()) :
    o.Supplied (o.completed inputs v).length := by
  unfold checkCount at h
  unfold Supplied
  cases harity : o.arity? with
  | none =>
    -- one operand is completed to two, and more of them are left alone
    have hlength : 1 ≤ inputs.length := List.length_pos_iff.mpr hinputs
    show 2 ≤ (o.completed inputs v).length
    unfold completed
    rw [harity]
    by_cases hone : inputs.length = 1
    · simp [hone]
    · simp only [hone, if_false]
      omega
  | some n =>
    rw [harity] at h
    cases n with
    | zero => trivial
    | succ n =>
      by_cases hcount : (o.completed inputs v).length = n + 1
      · exact hcount
      · simp [hcount] at h

/-! ### Evaluation -/

theorem checkCount_orderly : OrderlyCause (o.checkCount inputs) := by
  unfold checkCount
  split
  · exact .ok ()
  · split
    · exact .ok ()
    · exact .error rfl
  · exact .ok ()

theorem intervals_orderly : OrderlyCause (intervals name inputs) := by
  induction inputs with
  | nil => exact .ok []
  | cons u inputs ih =>
    cases u with
    | text g => exact .error rfl
    | integer iv => exact ih.map

theorem onlyText_orderly : OrderlyCause (onlyText name inputs) := by
  unfold onlyText
  split
  · exact .ok _
  · exact .error rfl
  · exact .error rfl

/-- An operator that is none by name only, applied to at least one operand, is evaluated without a
fault of structure. -/
theorem evaluate_orderly (ho : ∀ name, o ≠ .call name) (hinputs : inputs ≠ []) :
    OrderlyCause (o.evaluate inputs v) := by
  unfold evaluate
  refine checkCount_orderly.bind fun _ hcount => ?_
  have hsupplied := supplied_of_checkCount hinputs hcount
  have hrest (hon : o.IsOnIntervals) :
      OrderlyCause (intervals o.name (o.completed inputs v) >>= o.onIntervals) := by
    refine intervals_orderly.bind fun ivs hivs => ?_
    rw [← length_of_intervals hivs] at hsupplied
    obtain ⟨iv, hiv⟩ := onIntervals_total hon hsupplied
    rw [hiv]
    exact .ok iv
  cases o with
  | parseInt type => exact onlyText_orderly.bind fun g _ => .ok _
  | length =>
    refine onlyText_orderly.bind fun g _ => ?_
    cases g.maxLength with
    | none => exact .ok _
    | some n => exact .ok _
  | enumOrdinal arity => exact .ok _
  | enumValue values =>
    simp only
    split
    · exact .ok _
    · exact .error rfl
  | call name => exact absurd rfl (ho name)
  | _ => exact hrest trivial

end Operator

/-! ## Values -/

theorem TextGuarantee.matching_orderly (g : TextGuarantee) (pattern : String) (full : Bool) :
    OrderlyCause (g.matching pattern full) := by
  unfold matching
  split
  · split
    · exact .ok _
    · exact .error rfl
  · split
    · exact .ok _
    · exact .ok _

theorem Branch.refine_orderly (b : Branch) (v : Value) : OrderlyCause (b.refine v) := by
  unfold refine
  split
  · exact .ok _
  · exact .error rfl
  · split
    · exact (TextGuarantee.matching_orderly _ _ _).map
    · exact .ok _
  · exact .error rfl
  · split
    · exact .ok _
    · exact .ok _

theorem TextEffect.evaluate_orderly (name : String) (effect : TextEffect) (pieces : List Piece)
    (v : Value) : OrderlyCause (effect.evaluate name pieces v) := by
  cases v with
  | text g =>
    cases effect with
    | numericFormat radix => exact .error rfl
    | digest encoding length => cases encoding <;> exact .ok _
    | _ => exact .ok _
  | integer iv =>
    cases effect with
    | numericFormat radix => exact .ok _
    | _ => exact .error rfl

/-! ## Steps -/

namespace Walk

variable {p : Path} {c : Catalogue} {w w' : Walk} {index : Nat} {o o' : Operator}
  {operands : List Operand} {arguments : List Argument} {inputs : List Value} {v : Value}
  {ls : List Level} {before after : List Step} {s : Step}

/-! ### Levels and results -/

theorem top_orderly (h : w.levels ≠ []) : Orderly (w.top index) := by
  unfold top
  cases hls : w.levels with
  | nil => exact absurd hls h
  | cons l ls => exact .ok l

theorem resultOf_orderly {target : Nat} (h : target < w.results.length) :
    Orderly (w.resultOf index target) := by
  unfold resultOf
  rw [List.getElem?_eq_getElem h]
  exact .ok _

theorem mapLevels_orderly {f : Level → Except Fault Level} (h : ∀ l, Orderly (f l)) :
    Orderly (mapLevels f ls) := by
  induction ls with
  | nil => exact .ok []
  | cons l ls ih => exact ih.bind fun tail _ => (h l).bind fun head _ => .ok (head :: tail)

theorem leave_ne_nil {branch : Option Nat} (h : ls ≠ []) : leave p branch ls ≠ [] := by
  induction ls with
  | nil => exact absurd rfl h
  | cons inner ls ih =>
    cases ls with
    | nil => exact h
    | cons outer ls =>
      unfold leave
      split
      · exact h
      · exact ih (List.cons_ne_nil _ _)

/-- Every result that the operands refer to is there. -/
def HasOperands (w : Walk) (operands : List Operand) : Prop :=
  ∀ target, .step target ∈ operands → target < w.results.length

/-! ### Operations -/

theorem mapM_operandValue_orderly (h : w.HasOperands operands) :
    Orderly (operands.mapM (w.operandValue index v)) := by
  refine .mapM fun operand hoperand => ?_
  cases operand with
  | step target => exact resultOf_orderly (h target hoperand)
  | _ => exact .ok _

theorem numericTarget_orderly : Orderly (numericTarget c index o) := by
  unfold numericTarget
  split
  · split
    · exact .ok _
    · exact .ok _
    · exact .ok _
    · exact .error rfl
  · exact .ok _

/-- What a name stands for is no name, so every operator that a walk looks up can be evaluated. -/
theorem evaluate_target_orderly {target : NumericTarget} (hc : c.Registered)
    (htarget : numericTarget c index o = .ok target) (hinputs : inputs ≠ []) :
    OrderlyCause (target.evaluate inputs v) := by
  cases target with
  | custom f => exact Operator.intervals_orderly.map
  | unknown name => exact .ok _
  | builtin o' =>
    refine Operator.evaluate_orderly ?_ hinputs
    unfold numericTarget at htarget
    split at htarget
    · split at htarget
      · cases htarget
      · next hget =>
        cases htarget
        exact hc.ne_call hget
      · cases htarget
      · cases htarget
    · next hcall =>
      cases htarget
      exact hcall

theorem operandsOrCurrent_ne_nil (operands : List Operand) : operandsOrCurrent operands ≠ [] := by
  cases operands <;> simp [operandsOrCurrent]

/-- A numeric operation reads one operand at least. -/
theorem inputs_ne_nil
    (h : (operandsOrCurrent operands).mapM (w.operandValue index v) = .ok inputs) :
    inputs ≠ [] := by
  rintro rfl
  have hlength := (forall₂_of_mapM_eq_ok h).length_eq
  exact operandsOrCurrent_ne_nil operands (List.length_eq_zero_iff.mp hlength)

theorem HasOperands.orCurrent (h : w.HasOperands operands) :
    w.HasOperands (operandsOrCurrent operands) := by
  intro target htarget
  cases operands with
  | nil => simp [operandsOrCurrent] at htarget
  | cons operand operands => exact h target htarget

theorem applyNumeric_orderly (hc : c.Registered) (hoperands : w.HasOperands operands)
    (hlevels : w.levels ≠ []) : Orderly (w.applyNumeric c index o operands) := by
  unfold applyNumeric
  refine numericTarget_orderly.bind fun target htarget => ?_
  split
  · exact .ok _
  · have hlevel (l : Level) :
        Orderly (w.numericLevel index target (operandsOrCurrent operands) l) := by
      refine (mapM_operandValue_orderly hoperands.orCurrent).bind fun inputs hinputs => ?_
      have hevaluate := evaluate_target_orderly (v := l.value) hc htarget (inputs_ne_nil hinputs)
      exact (hevaluate.atStep index).bind fun iv _ => .ok _
    refine (mapLevels_orderly hlevel).bind fun ls hls => ?_
    refine (top_orderly ?_).bind fun l _ => .ok _
    obtain ⟨notes, hsettle⟩ := settle_eq { w with levels := ls } index "finite upper bound" fun l =>
      l.value.hasFiniteHigh
    rw [hsettle]
    have hlength := (forall₂_of_mapLevels_eq_ok hls).length_eq
    intro hnil
    have hls : ls = [] := List.map_eq_nil_iff.mp hnil
    rw [hls] at hlength
    exact hlevels (List.length_eq_zero_iff.mp hlength)

theorem applyText_orderly {name : String}
    (harguments : ∀ target, .step target ∈ arguments → target < w.results.length) :
    Orderly (w.applyText c index name arguments) := by
  unfold applyText
  split
  · exact .ok _
  · exact .error rfl
  · have hpieces : Orderly (arguments.mapM (w.pieceOf index)) := by
      refine .mapM fun argument hargument => ?_
      cases argument with
      | step target => exact (resultOf_orderly (harguments target hargument)).map
      | _ => exact .ok _
    refine hpieces.bind fun pieces _ => ?_
    refine (mapLevels_orderly fun l => ?_).bind fun ls _ => .ok _
    exact ((TextEffect.evaluate_orderly _ _ _ _).atStep index).bind fun g _ => .ok _

theorem enterBranch_orderly {id : Nat} (hentry : ∃ b, p.branches[id]? = some b)
    (hlevels : w.levels ≠ []) : Orderly (w.enterBranch p index id) := by
  obtain ⟨b, hb⟩ := hentry
  unfold enterBranch
  simp only [hb]
  refine (top_orderly hlevels).bind fun l _ => ?_
  refine ((b.refine_orderly l.value).atStep index).bind fun r _ => ?_
  split
  · exact .ok _
  · split
    · exact .ok _
    · exact .ok _

theorem apply_orderly (hp : p.validate = .ok ()) (hc : c.Registered)
    (hs : p.steps[index]? = some s) (hresults : w.results.length = index)
    (hlevels : w.levels ≠ [] ∨ ∃ src, s.op = .source src) :
    Orderly (w.apply p c index s.op) := by
  have hready (h : ∀ src, s.op ≠ .source src) : w.levels ≠ [] :=
    hlevels.resolve_right fun ⟨src, hsource⟩ => h src hsource
  cases hop : s.op with
  | source src => exact .ok _
  | sink k => exact .ok _
  | numeric o operands =>
    refine applyNumeric_orderly hc ?_ (hready (by simp [hop]))
    intro target htarget
    rw [hresults]
    exact Path.target_lt_of_operands hp hs hop htarget
  | string name arguments =>
    refine applyText_orderly ?_
    intro target htarget
    rw [hresults]
    exact Path.target_lt_of_arguments hp hs hop htarget
  | guard id =>
    exact enterBranch_orderly (Path.entry_of_validate hp hs hop) (hready (by simp [hop]))

theorem levels_ne_nil_of_apply {op : Operation} {why : String}
    (h : w.apply p c index op = .ok (w', why))
    (hlevels : w.levels ≠ [] ∨ ∃ src, op = .source src) : w'.levels ≠ [] := by
  have hbranches := apply_branches h
  intro hnil
  rw [hnil] at hbranches
  cases op with
  | source src => simp [branchesAfter] at hbranches
  | guard id => simp [branchesAfter] at hbranches
  | numeric | string | sink =>
    have hbefore : w.levels = [] := List.map_eq_nil_iff.mp hbranches.symm
    simp [hbefore] at hlevels

/-! ### Runs -/

/-- From the source on there is a value. -/
theorem Reached.levels_ne_nil (hw : Reached p c before w) (hbefore : before ≠ []) :
    w.levels ≠ [] := by
  obtain ⟨ss, t, rfl⟩ := List.eq_nil_or_concat before |>.resolve_left hbefore
  rw [List.concat_eq_append] at hw
  obtain ⟨l, ls, -, hls, -⟩ := hw.recorded
  rw [hls]
  exact List.cons_ne_nil l ls

/-- A step of a valid path has no fault of structure. -/
theorem step_orderly (hp : p.validate = .ok ()) (hc : c.Registered)
    (hsteps : p.steps = before ++ s :: after) (hw : Reached p c before w) :
    Orderly (w.step p c before.length s) := by
  have hs : p.steps[before.length]? = some s := by simp [hsteps]
  have hlevels : leave p s.branch w.levels ≠ [] ∨ ∃ src, s.op = .source src := by
    by_cases hbefore : before = []
    · obtain ⟨src, branch, ss, hfirst, -⟩ := Path.source_of_validate hp
      rw [hsteps, hbefore, List.nil_append] at hfirst
      exact Or.inr ⟨src, congrArg Step.op (List.cons.inj hfirst).1⟩
    · exact Or.inl (leave_ne_nil (hw.levels_ne_nil hbefore))
  unfold step
  refine (apply_orderly (w := { w with levels := leave p s.branch w.levels }) hp hc hs
    hw.length_results hlevels).bind fun r happly => ?_
  exact (top_orderly (levels_ne_nil_of_apply happly hlevels)).bind fun l _ => .ok _

theorem steps_orderly (hp : p.validate = .ok ()) (hc : c.Registered)
    (hsteps : p.steps = before ++ after) (hw : Reached p c before w) :
    Orderly (steps p c before.length after w) := by
  induction after generalizing before w with
  | nil => exact .ok w
  | cons s after ih =>
    refine (step_orderly hp hc hsteps hw).bind fun w' hstep => ?_
    have hnext : p.steps = (before ++ [s]) ++ after := by simp [hsteps]
    have hrest := ih hnext (hw.step hstep)
    rwa [List.length_append] at hrest

theorem finish_orderly (h : w.levels ≠ []) : Orderly (w.finish p) := by
  unfold finish
  split
  · next hnil => exact absurd hnil h
  · exact .ok _

end Walk

/-- The walk along a valid path ends with no fault of structure. -/
theorem Path.summarize_orderly {p : Path} {c : Catalogue} {limit : Option Nat}
    (hp : p.validate = .ok ()) (hc : c.Registered) : Orderly (p.summarize c limit) := by
  unfold summarize
  rw [hp]
  have hlimit : Orderly (p.checkLength limit) := by
    unfold checkLength
    split
    · split
      · exact .ok _
      · exact .error rfl
    · exact .ok _
  refine hlimit.bind fun _ _ => ?_
  refine (Walk.steps_orderly hp hc (List.nil_append _).symm .start).bind fun w hw => ?_
  refine Walk.finish_orderly ((Walk.reached_of_steps hw).levels_ne_nil ?_)
  obtain ⟨src, branch, ss, hsteps, -⟩ := source_of_validate hp
  rw [hsteps]
  exact List.cons_ne_nil _ _

/-- With a catalogue that registering made, the walk along a valid path has no fault of structure.
No operator looks beyond its operands: once these are completed and counted there are as many as it
looks at. And the search for the branches around a branch ends, whichever branch it starts from, so
it finds exactly those. -/
theorem no_structural_fault_of_validate {p : Path} {c : Catalogue} {limit : Option Nat}
    (hp : p.validate = .ok ()) (hc : c.Registered) :
    (∀ f, p.summarize c limit = .error f → f.isStructural = false) ∧
      (∀ (w : Walk) (index : Nat) (v : Value) (o : Operator) (operands : List Operand)
        (inputs : List Value),
        (Walk.operandsOrCurrent operands).mapM (w.operandValue index v) = .ok inputs →
        o.checkCount (o.completed inputs v) = .ok () →
        o.Supplied (o.completed inputs v).length) ∧
      (∀ branch, ∃ n ≤ p.branches.length + 1, p.around^[n] branch = none) ∧
      ∀ outer branch, p.encloses (some outer) branch = true ↔
        ∃ n, p.around^[n] branch = some outer := by
  have hparents := Path.parentsFirst_of_validate hp
  refine ⟨fun f hf => Path.summarize_orderly hp hc f hf, ?_, Path.around_ends hparents,
    fun _ _ => Path.encloses_iff_around hparents⟩
  intro w index v o operands inputs hinputs hcount
  exact Operator.supplied_of_checkCount (Walk.inputs_ne_nil hinputs) hcount

/-- A limit on a count that is still a text, on a branch inside of another one. -/
def unparsedCount : Path :=
  { version := pathVersion
    branches :=
      [{ parent := none, condition := .inAllowList (.ofList ["10", "20"]), outcome := .failed },
        { parent := some 0, condition := .inAllowList (.ofList ["50"]), outcome := .passed }]
    steps :=
      [⟨.source (.ofText "count"), none⟩, ⟨.guard 0, some 0⟩, ⟨.guard 1, some 1⟩,
        ⟨.numeric (.call "Page.limit") [.step 0, .const 20], some 1⟩, ⟨.sink .loopBound, none⟩] }

theorem no_structural_fault_unparsedCount :
    (∃ f, unparsedCount.summarize pageLimit none = .error f ∧ f.isStructural = false) ∧
      ∃ n ≤ 3, unparsedCount.around^[n] (some 1) = none := by
  obtain ⟨hfaults, -, hends, -⟩ := no_structural_fault_of_validate (p := unparsedCount)
    rfl registered_pageLimit
  refine ⟨?_, hends (some 1)⟩
  have hfails : (unparsedCount.summarize pageLimit none).toOption.isNone = true := by
    decide +kernel
  cases hs : unparsedCount.summarize pageLimit none with
  | error f => exact ⟨f, rfl, hfaults f hs⟩
  | ok s =>
    rw [hs] at hfails
    contradiction

end FlowSafety
