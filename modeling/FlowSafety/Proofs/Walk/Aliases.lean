import FlowSafety.Proofs.Catalogue.Registered
import FlowSafety.Proofs.Walk.Summary

/-!
# Names of operators

A catalogue can have another name for an operator. Writing the operator in place of its name changes
nothing but the text of the steps in the trace, as long as the operator passes the validation that
only operators written as such go through. An enumeration without constants does not: under its own
name it is a fault, and under another one it is an operator without results.

* `Step.Spelled` — a step, or the same one with the operator in place of its name
* `Walk.retraced` — a walk with another trace
* `Path.summarize_spelled` — the summaries agree in all but the trace
* `classify_spelled` — and so do the outcomes, apart from an enumeration without constants
-/

namespace FlowSafety

/-! ## Computations that agree -/

/-- Both computations fail with the same fault, or their results are related. -/
inductive Agree {ε α β : Type} (R : α → β → Prop) : Except ε α → Except ε β → Prop
  | error (e : ε) : Agree R (.error e) (.error e)
  | ok {a : α} {b : β} : R a b → Agree R (.ok a) (.ok b)

theorem Agree.bind {ε α β γ δ : Type} {R : α → β → Prop} {S : γ → δ → Prop} {x : Except ε α}
    {y : Except ε β} {f : α → Except ε γ} {g : β → Except ε δ} (h : Agree R x y)
    (hfg : ∀ {a b}, R a b → Agree S (f a) (g b)) : Agree S (x >>= f) (y >>= g) := by
  cases h with
  | error e => exact .error e
  | ok hab => exact hfg hab

/-! ## Walks with another trace -/

namespace Walk

variable {p : Path} {c : Catalogue} {w : Walk} {index : Nat} {trace : List Trace}

/-- The walk with another trace. Nothing that a walk does depends on its trace. -/
def retraced (trace : List Trace) (w : Walk) : Walk := { w with trace := trace }

theorem settle_retraced (w : Walk) (how : String) (accepts : Level → Bool) :
    (w.retraced trace).settle index how accepts =
      (w.settle index how accepts).retraced trace := by
  unfold settle
  rw [show (w.retraced trace).levels = w.levels from rfl]
  cases pendingOn accepts w.levels <;> rfl

theorem redact_retraced (w : Walk) (effect : TextEffect) :
    (w.retraced trace).redact index effect = (w.redact index effect).retraced trace := by
  unfold redact
  show (if effect.isRedacting && w.isSensitive then _ else _) = _
  split <;> rfl

theorem enterBranch_retraced (id : Nat) :
    (w.retraced trace).enterBranch p index id =
      (w.enterBranch p index id).map fun r => (r.1.retraced trace, r.2) := by
  unfold enterBranch
  cases p.branches[id]? with
  | none => rfl
  | some branch =>
    simp only
    rw [show (w.retraced trace).top index = w.top index from rfl]
    cases w.top index with
    | error f => rfl
    | ok l =>
      simp only [bind, Except.bind]
      cases branch.refine l.value with
      | error f => rfl
      | ok r =>
        simp only [Except.mapError]
        split_ifs
        · exact congrArg (fun w => Except.ok (w, r.2)) (settle_retraced { w with levels := _ } _ _)
        · exact congrArg (fun w => Except.ok (w, r.2)) (settle_retraced { w with levels := _ } _ _)
        · rfl

theorem applyNumeric_retraced (o : Operator) (operands : List Operand) :
    (w.retraced trace).applyNumeric c index o operands =
      (w.applyNumeric c index o operands).map fun r => (r.1.retraced trace, r.2) := by
  unfold applyNumeric
  cases numericTarget c index o with
  | error f => rfl
  | ok target =>
    simp only [bind, Except.bind]
    split
    · rfl
    · rw [show (w.retraced trace).numericLevel index target = w.numericLevel index target from rfl]
      simp only [show (w.retraced trace).levels = w.levels from rfl]
      cases mapLevels (w.numericLevel index target
          (if operands.isEmpty = true then [.current] else operands)) w.levels with
      | error f => rfl
      | ok ls =>
        simp only
        rw [show ({ w.retraced trace with levels := ls } : Walk) =
          ({ w with levels := ls } : Walk).retraced trace from rfl, settle_retraced]
        generalize settle _ _ _ _ = w'
        rw [show (w'.retraced trace).top index = w'.top index from rfl]
        cases w'.top index <;> rfl

theorem applyText_retraced (name : String) (arguments : List Argument) :
    (w.retraced trace).applyText c index name arguments =
      (w.applyText c index name arguments).map fun r => (r.1.retraced trace, r.2) := by
  unfold applyText
  split
  · rfl
  · rfl
  · next effect _ =>
    rw [show (w.retraced trace).pieceOf index = w.pieceOf index from rfl]
    simp only [bind, Except.bind]
    cases arguments.mapM (w.pieceOf index) with
    | error f => rfl
    | ok pieces =>
      simp only [show (w.retraced trace).levels = w.levels from rfl]
      cases mapLevels (textLevel index name effect pieces) w.levels with
      | error f => rfl
      | ok ls =>
        simp only
        rw [show ({ w.retraced trace with levels := ls } : Walk) =
          ({ w with levels := ls } : Walk).retraced trace from rfl, settle_retraced,
          ← apply_ite (retraced trace), redact_retraced]
        rfl

theorem apply_retraced (op : Operation) :
    (w.retraced trace).apply p c index op =
      (w.apply p c index op).map fun r => (r.1.retraced trace, r.2) := by
  cases op with
  | source s => rfl
  | sink k => rfl
  | guard id => exact enterBranch_retraced id
  | numeric o operands => exact applyNumeric_retraced o operands
  | string name arguments => exact applyText_retraced name arguments

/-- The steps of walks that know the same, apart from their traces. -/
def SameButTrace (w w' : Walk) : Prop := ∃ trace, w' = w.retraced trace

end Walk

/-! ## Spelling -/

/-- The same step, in which the operator may stand in place of its name. -/
inductive Step.Spelled (name : String) (o : Operator) : Step → Step → Prop
  | kept {s : Step} : Spelled name o s s
  | replaced {operands : List Operand} {branch : Option Nat} :
      Spelled name o ⟨.numeric (.call name) operands, branch⟩ ⟨.numeric o operands, branch⟩

namespace Step.Spelled

variable {name : String} {o : Operator} {s s' : Step}

theorem branch_eq (h : s.Spelled name o s') : s'.branch = s.branch := by
  cases h <;> rfl

/-- Where the name is an alias of the operator, a walk applies the same operation. -/
theorem apply_eq {p : Path} {c : Catalogue} {w : Walk} {index : Nat} (hc : c.Registered)
    (hname : c.get? name = some (.numeric (.builtin o))) (h : s.Spelled name o s') :
    w.apply p c index s'.op = w.apply p c index s.op := by
  cases h with
  | kept => rfl
  | @replaced operands branch =>
    have htarget : Walk.numericTarget c index o = Walk.numericTarget c index (.call name) := by
      rw [(Catalogue.Means.direct (hc.ne_call hname)).numericTarget index,
        (Catalogue.Means.renamed hname).numericTarget index]
    show w.applyNumeric c index o operands = w.applyNumeric c index (.call name) operands
    unfold Walk.applyNumeric
    rw [htarget]

end Step.Spelled

namespace Walk

variable {p : Path} {c : Catalogue} {w w' : Walk} {index : Nat} {name : String} {o : Operator}
  {ss ss' : List Step} {s s' : Step}

theorem record_agree (op op' : Operation) (why : String) (trace : List Trace) :
    Agree SameButTrace (w.record index op why) ((w.retraced trace).record index op' why) := by
  unfold record
  rw [show (w.retraced trace).top index = w.top index from rfl]
  cases w.top index with
  | error f => exact .error f
  | ok l => exact .ok ⟨_, rfl⟩

/-- A walk looks at the branches of the path and not at its other steps. -/
theorem leave_with_steps (p : Path) (ss : List Step) (branch : Option Nat) (ls : List Level) :
    leave { p with steps := ss } branch ls = leave p branch ls := by
  induction ls with
  | nil => rfl
  | cons inner ls ih =>
    cases ls with
    | nil => rfl
    | cons outer ls =>
      unfold leave
      rw [ih]
      rfl

theorem apply_with_steps (p : Path) (ss : List Step) :
    apply { p with steps := ss } = apply p := rfl

/-- A step leaves walks that know the same alike. -/
theorem step_agree (hc : c.Registered) (hname : c.get? name = some (.numeric (.builtin o)))
    (hs : s.Spelled name o s') (hw : w.SameButTrace w') :
    Agree SameButTrace (w.step p c index s) (w'.step { p with steps := ss } c index s') := by
  obtain ⟨trace, rfl⟩ := hw
  unfold step
  simp only [hs.branch_eq, leave_with_steps, apply_with_steps, hs.apply_eq hc hname]
  rw [show ({ w.retraced trace with levels := leave p s.branch (w.retraced trace).levels } : Walk) =
    ({ w with levels := leave p s.branch w.levels } : Walk).retraced trace from rfl, apply_retraced]
  cases apply p c index s.op { w with levels := leave p s.branch w.levels } with
  | error f => exact .error f
  | ok r => exact record_agree s.op s'.op r.2 trace

theorem steps_agree (hc : c.Registered) (hname : c.get? name = some (.numeric (.builtin o)))
    {ts ts' : List Step} (hts : List.Forall₂ (Step.Spelled name o) ts ts')
    (hw : w.SameButTrace w') :
    Agree SameButTrace (steps p c index ts w) (steps { p with steps := ss } c index ts' w') := by
  induction hts generalizing index w w' with
  | nil => exact .ok hw
  | cons hs _ ih => exact (step_agree hc hname hs hw).bind ih

end Walk

/-! ## Validation -/

namespace Path

variable {p : Path} {name : String} {o : Operator} {index : Nat} {ss ss' : List Step}
  {s s' : Step}

theorem validateStep_spelled (ho : ∀ i, validateOperator i o = .ok ())
    (hlength : ss.length = p.steps.length) (hs : s.Spelled name o s') :
    validateStep { p with steps := ss } index s' = validateStep p index s := by
  have hoperation : validateOperation { p with steps := ss } index s' =
      validateOperation p index s := by
    cases hs with
    | kept => simp only [validateOperation, hlength]
    | replaced => simp only [validateOperation, ho]; rfl
  unfold validateStep
  rw [hs.branch_eq, hoperation]

theorem validateSteps_spelled (ho : ∀ i, validateOperator i o = .ok ())
    (hlength : ss.length = p.steps.length) {ts ts' : List Step}
    (hts : List.Forall₂ (Step.Spelled name o) ts ts') :
    validateSteps { p with steps := ss } index ts' = validateSteps p index ts := by
  induction hts generalizing index with
  | nil => rfl
  | cons hs _ ih => simp only [validateSteps, validateStep_spelled ho hlength hs, ih]

/-- An operator that passes validation can be written in place of its name. -/
theorem validate_spelled (ho : ∀ i, validateOperator i o = .ok ())
    (hss : List.Forall₂ (Step.Spelled name o) p.steps ss) :
    ({ p with steps := ss } : Path).validate = p.validate := by
  have hstart : validateStart ss = validateStart p.steps := by
    generalize p.steps = ts at hss
    cases hss with
    | nil => rfl
    | @cons s _ _ _ hs _ =>
      cases hs with
      | kept =>
        obtain ⟨op, _⟩ := s
        cases op <;> rfl
      | replaced => rfl
  unfold validate
  simp only [hstart, validateSteps_spelled ho hss.length_eq.symm hss]

/-- Only an enumeration without constants is an operator that does not pass. -/
theorem validateOperator_cases (o : Operator) :
    (∀ i, validateOperator i o = .ok ()) ∨ o = .enumOrdinal 0 ∨ o = .enumValue [] := by
  by_cases hordinal : o = .enumOrdinal 0
  · exact Or.inr (Or.inl hordinal)
  · by_cases hvalue : o = .enumValue []
    · exact Or.inr (Or.inr hvalue)
    · refine Or.inl fun i => ?_
      unfold validateOperator
      split
      · contradiction
      · contradiction
      · rfl

/-- Steps that are not spelled as before have the operator in place of the name somewhere. -/
theorem exists_replaced {ts ts' : List Step} (h : List.Forall₂ (Step.Spelled name o) ts ts')
    (hne : ts' ≠ ts) :
    ∃ (i : Nat) (operands : List Operand) (branch : Option Nat),
      ts[i]? = some ⟨.numeric (.call name) operands, branch⟩ ∧
        ts'[i]? = some ⟨.numeric o operands, branch⟩ := by
  induction h with
  | nil => exact absurd rfl hne
  | @cons s s' ts ts' hs _ ih =>
    cases hs with
    | kept =>
      obtain ⟨i, operands, branch, hi, hi'⟩ := ih fun he => hne (congrArg _ he)
      exact ⟨i + 1, operands, branch, hi, hi'⟩
    | @replaced operands branch => exact ⟨0, operands, branch, rfl, rfl⟩

theorem validate_ne_ok_of_replaced (ho : ∀ i, validateOperator i o ≠ .ok ())
    (hss : List.Forall₂ (Step.Spelled name o) p.steps ss) (hne : ss ≠ p.steps) :
    ({ p with steps := ss } : Path).validate ≠ .ok () := by
  intro hvalid
  obtain ⟨i, operands, branch, -, hi⟩ := exists_replaced hss hne
  have hstep := validateOperation_of_validate hvalid hi
  obtain ⟨-, -, hoperator⟩ := bind_eq_ok.mp hstep
  exact ho i hoperator

end Path

/-! ## Summaries -/

/-- The summaries say the same, apart from the trace. -/
def Summary.SameButTrace (s s' : Summary) : Prop := ∃ trace, s' = { s with trace := trace }

theorem Walk.finish_agree {p : Path} {ss : List Step} {w w' : Walk}
    (hlength : ss.length = p.steps.length) (hw : w.SameButTrace w') :
    Agree Summary.SameButTrace (w.finish p) (w'.finish { p with steps := ss }) := by
  obtain ⟨trace, rfl⟩ := hw
  unfold finish
  rw [show (w.retraced trace).levels = w.levels from rfl]
  cases w.levels with
  | nil =>
    simp only [hlength]
    exact .error _
  | cons l ls => exact .ok ⟨trace, rfl⟩

namespace Path

variable {p : Path} {c : Catalogue} {limit : Option Nat} {name : String} {o : Operator}
  {ss : List Step} {s : Summary}

/-- Writing an operator in place of its alias changes only the trace of the summary. -/
theorem summarize_spelled (hc : c.Registered) (hname : c.get? name = some (.numeric (.builtin o)))
    (ho : ∀ i, validateOperator i o = .ok ())
    (hss : List.Forall₂ (Step.Spelled name o) p.steps ss) :
    Agree Summary.SameButTrace (p.summarize c limit)
      (({ p with steps := ss } : Path).summarize c limit) := by
  have hlength : ss.length = p.steps.length := hss.length_eq.symm
  have hlimit : ({ p with steps := ss } : Path).checkLength limit = p.checkLength limit := by
    unfold checkLength
    simp only [hlength]
  unfold summarize
  rw [validate_spelled ho hss, hlimit]
  cases p.validate with
  | error f => exact .error f
  | ok _ =>
    cases p.checkLength limit with
    | error f => exact .error f
    | ok _ =>
      exact (Walk.steps_agree hc hname hss ⟨[], rfl⟩).bind (Walk.finish_agree hlength)

/-- A path does not get past an alias of an enumeration without values. -/
theorem summarize_ne_ok_of_enumValue
    (hname : c.get? name = some (.numeric (.builtin (.enumValue [])))) {i : Nat}
    {operands : List Operand} {branch : Option Nat}
    (hi : p.steps[i]? = some ⟨.numeric (.call name) operands, branch⟩) :
    p.summarize c limit ≠ .ok s := by
  intro hs
  obtain ⟨-, w, hw, -⟩ := summarize_eq_ok hs
  obtain ⟨before, after, hsteps⟩ := List.append_of_mem (List.mem_of_getElem? hi)
  rw [hsteps] at hw
  obtain ⟨w₀, w₁, -, hstep⟩ := hw.of_append
  have htarget := (Catalogue.Means.renamed hname).numericTarget before.length
  -- some level is left after the step, so the operator has been evaluated on one
  obtain ⟨l, hl, -⟩ := Walk.step_results hstep
  rcases Walk.step_values hstep hl with ⟨src, hsource, -⟩ | ⟨l₀, -, hrenew⟩
  · contradiction
  · generalize l.value = v at hrenew
    cases hrenew with
    | forgottenNumber hunknown => cases htarget.symm.trans hunknown
    | computed hknown _ hiv =>
      cases htarget.symm.trans hknown
      contradiction

end Path

/-! ## Verdicts -/

namespace Classifier

variable {c : Classifier} {p q : Path}

theorem classify_outcome_of_agree
    (h : Agree Summary.SameButTrace (c.summarize p) (c.summarize q)) :
    (c.classify p).outcome = (c.classify q).outcome := by
  generalize hp : c.summarize p = x at h
  generalize hq : c.summarize q = y at h
  cases h with
  | error f => rw [classify_outcome_of_error hp, classify_outcome_of_error hq]
  | ok hs =>
    obtain ⟨trace, rfl⟩ := hs
    rw [classify_outcome hp, classify_outcome hq]
    exact outcomeOf_congr rfl rfl rfl rfl rfl

theorem classify_outcome_of_ne_ok (h : ∀ s, c.summarize p ≠ .ok s) :
    (c.classify p).outcome = .unknown := by
  cases hs : c.summarize p with
  | error f => exact classify_outcome_of_error hs
  | ok s => exact absurd hs (h s)

end Classifier

/-- In a catalogue that registering made, an alias behaves as the operator that it is an alias of:
with the operator written in its place in some steps the outcome is the same, and so is the value at
the end. The exception is an enumeration without constants, of which only the operator itself is a
fault. -/
theorem classify_spelled {c : Classifier} {p : Path} {name : String} {o : Operator}
    {ss : List Step} (hc : c.catalogue.Registered)
    (hname : c.catalogue.get? name = some (.numeric (.builtin o)))
    (hss : List.Forall₂ (Step.Spelled name o) p.steps ss) :
    ((c.classify { p with steps := ss }).outcome =
        if o = .enumOrdinal 0 ∧ ss ≠ p.steps then .unknown else (c.classify p).outcome) ∧
      ∀ s s', c.summarize p = .ok s → c.summarize { p with steps := ss } = .ok s' →
        s'.value = s.value := by
  by_cases hsame : ss = p.steps
  · subst hsame
    refine ⟨by simp, ?_⟩
    intro s s' hs hs'
    obtain rfl := Except.ok.inj (hs.symm.trans hs')
    rfl
  · have hinvalid (ho : ∀ i, Path.validateOperator i o ≠ .ok ()) (s : Summary) :
        c.summarize { p with steps := ss } ≠ .ok s := fun hs =>
      Path.validate_ne_ok_of_replaced ho hss hsame (Path.summarize_eq_ok hs).1
    rcases Path.validateOperator_cases o with ho | rfl | rfl
    · have hagree : Agree Summary.SameButTrace (c.summarize p)
          (c.summarize { p with steps := ss }) := Path.summarize_spelled hc hname ho hss
      constructor
      · have hordinal : o ≠ .enumOrdinal 0 := by
          rintro rfl
          exact absurd (ho 0) (by simp [Path.validateOperator])
        rw [if_neg fun h => hordinal h.1, Classifier.classify_outcome_of_agree hagree]
      · intro s s' hs hs'
        rw [hs, hs'] at hagree
        cases hagree with
        | ok h =>
          obtain ⟨trace, rfl⟩ := h
          rfl
    · have hfails := hinvalid fun i => by simp [Path.validateOperator]
      exact ⟨by simp [hsame, Classifier.classify_outcome_of_ne_ok hfails],
        fun s s' _ hs' => absurd hs' (hfails s')⟩
    · have hfails := hinvalid fun i => by simp [Path.validateOperator]
      -- under the alias the fault comes up in the walk, and not in the validation
      obtain ⟨i, operands, branch, hi, -⟩ := Path.exists_replaced hss hsame
      have hfails' (s : Summary) : c.summarize p ≠ .ok s :=
        Path.summarize_ne_ok_of_enumValue hname hi
      exact ⟨by simp [Classifier.classify_outcome_of_ne_ok hfails,
          Classifier.classify_outcome_of_ne_ok hfails'],
        fun s s' _ hs' => absurd hs' (hfails s')⟩

/-- A limit under the name that a program has for it. -/
def pageLimit : Catalogue := Catalogue.empty.insert "Page.limit" (.numeric (.builtin .min))

/-- The same, and the ordinal of an enumeration that has no constants yet. -/
def pageOrdinal : Catalogue := pageLimit.insert "Page.ordinal" (.numeric (.builtin (.enumOrdinal 0)))

theorem registered_pageLimit : pageLimit.Registered := by
  have hregister : Catalogue.empty.register "Page.limit" .numeric (.numeric (.builtin .min)) =
      .ok pageLimit := rfl
  exact .register .empty hregister

theorem registered_pageOrdinal : pageOrdinal.Registered := by
  have hregister : pageLimit.register "Page.ordinal" .numeric
      (.numeric (.builtin (.enumOrdinal 0))) = .ok pageOrdinal := rfl
  exact .register registered_pageLimit hregister

/-- The classifier of a program with helpers of its own. -/
def paging (ceiling : Nat) (helpers : Catalogue) : Classifier :=
  { policy := .withCeiling ceiling, ceiling := ceiling, catalogue := helpers }

/-- A count that is limited twice under an alias, the second time on a branch. -/
def limitedPages : Path :=
  { version := pathVersion
    branches := [{ parent := none, condition := .compare .ge 0, outcome := .passed }]
    steps :=
      [⟨.source (.ofInteger "pages" .i32), none⟩,
        ⟨.numeric (.call "Page.limit") [.const 50], none⟩, ⟨.guard 0, some 0⟩,
        ⟨.numeric (.call "Page.limit") [.step 0, .const 20], some 0⟩, ⟨.sink .loopBound, some 0⟩] }

theorem classify_spelled_limitedPages :
    ((paging 20 pageLimit).classify
        { limitedPages with
          steps := limitedPages.steps.take 3 ++
            [⟨.numeric .min [.step 0, .const 20], some 0⟩, ⟨.sink .loopBound, some 0⟩] }).outcome =
      ((paging 20 pageLimit).classify limitedPages).outcome := by
  have hname : pageLimit.get? "Page.limit" = some (.numeric (.builtin .min)) := rfl
  have hspelled := classify_spelled (c := paging 20 pageLimit) (p := limitedPages)
    registered_pageLimit hname
    (.cons .kept (.cons .kept (.cons .kept (.cons .replaced (.cons .kept .nil)))))
  exact hspelled.1

/-- A loop over the positions of the constants of an enumeration, under the name of the program. -/
def ordinalLoop : Path :=
  { version := pathVersion
    branches := []
    steps :=
      [⟨.source (.ofInteger "kind" .i32), none⟩, ⟨.numeric (.call "Page.ordinal") [], none⟩,
        ⟨.sink .loopBound, none⟩] }

/-- Registering an alias does not look at how many constants an enumeration has, and neither does
the operator, so under an alias an enumeration without constants passes for a loop that is never
reached. Written as such it is a fault. -/
theorem safe_under_alias_of_no_constants :
    pageOrdinal.Registered ∧
      pageOrdinal.get? "Page.ordinal" = some (.numeric (.builtin (.enumOrdinal 0))) ∧
      List.Forall₂ (Step.Spelled "Page.ordinal" (.enumOrdinal 0)) ordinalLoop.steps
        [⟨.source (.ofInteger "kind" .i32), none⟩, ⟨.numeric (.enumOrdinal 0) [], none⟩,
          ⟨.sink .loopBound, none⟩] ∧
      ((paging 20 pageOrdinal).classify ordinalLoop).outcome = .safe ∧
      ((paging 20 pageOrdinal).classify
        { ordinalLoop with
          steps := [⟨.source (.ofInteger "kind" .i32), none⟩, ⟨.numeric (.enumOrdinal 0) [], none⟩,
            ⟨.sink .loopBound, none⟩] }).outcome = .unknown := by
  refine ⟨registered_pageOrdinal, rfl, ?_, by decide, by decide⟩
  exact .cons .kept (.cons .replaced (.cons .kept .nil))

end FlowSafety
