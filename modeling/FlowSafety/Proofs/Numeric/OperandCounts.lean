import FlowSafety.Proofs.Walk.Structure

/-!
# How many operands an operator takes

An operator of a fixed number of operands may be written with all of them, or without the first, for
which it then takes the flowing value. Two rules complete what is written: no operands at all stand
for the flowing value, and where one operand is lacking the flowing value goes in front. Written
without operands, an operator goes through both rules, and a binary one ends up with the flowing
value on both sides. That is the one count that is accepted beyond those that an operator admits.

* `Operator.Admits` — the counts that an operator is made for
* `Operator.evaluate_of_admits`, `Operator.evaluate_of_not_admits` — it has a result on integers, or
  a fault that names both counts
* `Walk.numericLevel_of_admits`, `Walk.numericLevel_of_not_admits` — the same on one level
* `Walk.applyNumeric_flowing_first` — where one operand is lacking the flowing value is the first
* `Walk.accepted_iff_admits` — which counts a step on integers is accepted with
-/

namespace FlowSafety

/-! ## Operators -/

/-- Integers only. -/
def AllIntegers (vs : List Value) : Prop := ∀ v ∈ vs, ∃ iv, v = .integer iv

namespace Operator

variable {o : Operator} {inputs : List Value} {v : Value}

/-- The operator is made for so many operands: all of its own, or all but the first. One that takes
any number needs one at least. -/
def Admits (o : Operator) (count : Nat) : Prop :=
  match o.arity? with
  | some n => count = n ∨ count + 1 = n
  | none => 1 ≤ count

/-- The flowing value is the first operand of the operator if so many are written. -/
def LacksFirst (o : Operator) (count : Nat) : Prop :=
  match o.arity? with
  | some n => count + 1 = n
  | none => count = 1

theorem completed_of_lacksFirst (h : o.LacksFirst inputs.length) :
    o.completed inputs v = v :: inputs := by
  unfold LacksFirst at h
  unfold completed
  cases harity : o.arity? with
  | none =>
    rw [harity] at h
    exact if_pos h
  | some n =>
    rw [harity] at h
    obtain rfl : inputs.length + 1 = n := h
    exact if_pos rfl

theorem completed_of_not_lacksFirst (h : ¬ o.LacksFirst inputs.length) :
    o.completed inputs v = inputs := by
  unfold LacksFirst at h
  unfold completed
  cases harity : o.arity? with
  | none =>
    rw [harity] at h
    exact if_neg h
  | some n =>
    rw [harity] at h
    cases n with
    | zero => rfl
    | succ n => exact if_neg h

/-- What the flowing value was put in front of lacks nothing more. -/
theorem LacksFirst.not_succ {count : Nat} (h : o.LacksFirst count) :
    ¬ o.LacksFirst (count + 1) := by
  unfold LacksFirst at h ⊢
  cases harity : o.arity? with
  | none =>
    simp only [harity] at h ⊢
    omega
  | some n =>
    simp only [harity] at h ⊢
    omega

theorem LacksFirst.admits {count : Nat} (h : o.LacksFirst count) : o.Admits count := by
  unfold LacksFirst at h
  unfold Admits
  cases harity : o.arity? with
  | none =>
    rw [harity] at h
    exact Nat.le_of_eq h.symm
  | some n =>
    rw [harity] at h
    exact Or.inr h

/-! ### Counting -/

theorem IsOnIntervals.arity_ne_zero (ho : o.IsOnIntervals) : o.arity? ≠ some 0 := by
  cases o with
  | parseInt | length | enumOrdinal | enumValue | call => exact ho.elim
  | _ => simp [arity?]

/-- A count that the operator admits passes once the operands are complete. -/
theorem checkCount_of_admits (ho : o.IsOnIntervals) (h : o.Admits inputs.length) :
    o.checkCount (o.completed inputs v) = .ok () := by
  unfold checkCount
  unfold Admits at h
  cases harity : o.arity? with
  | none => rfl
  | some n =>
    have hn : n ≠ 0 := fun hzero => ho.arity_ne_zero (hzero ▸ harity)
    rw [harity] at h
    obtain ⟨n, rfl⟩ := Nat.exists_eq_succ_of_ne_zero hn
    have hlength : (o.completed inputs v).length = n + 1 := by
      by_cases hlacks : o.LacksFirst inputs.length
      · rw [completed_of_lacksFirst hlacks, List.length_cons]
        unfold LacksFirst at hlacks
        rwa [harity] at hlacks
      · rw [completed_of_not_lacksFirst hlacks]
        unfold LacksFirst at hlacks
        rw [harity] at hlacks
        exact h.resolve_right hlacks
    exact if_pos hlength

/-- Any other count is reported beside the one that the operator takes. -/
theorem checkCount_of_not_admits (ho : o.IsOnIntervals) (hinputs : inputs ≠ [])
    (h : ¬ o.Admits inputs.length) :
    ∃ n, o.arity? = some n ∧
      o.checkCount (o.completed inputs v) =
        .error (.operandCount o.name n inputs.length) := by
  rw [completed_of_not_lacksFirst fun hlacks => h hlacks.admits]
  unfold checkCount
  unfold Admits at h
  cases harity : o.arity? with
  | none =>
    rw [harity] at h
    exact absurd (List.length_pos_iff.mpr hinputs) h
  | some n =>
    have hn : n ≠ 0 := fun hzero => ho.arity_ne_zero (hzero ▸ harity)
    rw [harity] at h
    obtain ⟨n, rfl⟩ := Nat.exists_eq_succ_of_ne_zero hn
    exact ⟨n + 1, rfl, if_neg fun heq => h (Or.inl heq)⟩

/-! ### Evaluation -/

theorem intervals_total (name : String) (h : AllIntegers inputs) :
    ∃ ivs, intervals name inputs = .ok ivs := by
  induction inputs with
  | nil => exact ⟨[], rfl⟩
  | cons u inputs ih =>
    obtain ⟨iv, rfl⟩ := h u List.mem_cons_self
    obtain ⟨ivs, hivs⟩ := ih fun u hu => h u (List.mem_cons_of_mem _ hu)
    exact ⟨iv :: ivs, map_eq_ok.mpr ⟨ivs, hivs, rfl⟩⟩

theorem IsOnIntervals.evaluate_eq (ho : o.IsOnIntervals) :
    o.evaluate inputs v = (do
      o.checkCount (o.completed inputs v)
      o.onIntervals (← intervals o.name (o.completed inputs v))) := by
  cases o with
  | parseInt | length | enumOrdinal | enumValue | call => exact ho.elim
  | _ => rfl

/-- The operator has a result on integers, as many as it admits. -/
theorem evaluate_of_admits (ho : o.IsOnIntervals) (hinputs : inputs ≠ [])
    (hintegers : AllIntegers (v :: inputs)) (h : o.Admits inputs.length) :
    ∃ iv, o.evaluate inputs v = .ok iv := by
  have hcount := checkCount_of_admits (v := v) ho h
  have hcompleted : AllIntegers (o.completed inputs v) := by
    by_cases hlacks : o.LacksFirst inputs.length
    · rwa [completed_of_lacksFirst hlacks]
    · rw [completed_of_not_lacksFirst hlacks]
      exact fun u hu => hintegers u (List.mem_cons_of_mem v hu)
  obtain ⟨ivs, hivs⟩ := intervals_total o.name hcompleted
  have hsupplied := supplied_of_checkCount hinputs hcount
  rw [← length_of_intervals hivs] at hsupplied
  obtain ⟨iv, hiv⟩ := onIntervals_total ho hsupplied
  refine ⟨iv, ?_⟩
  rw [ho.evaluate_eq]
  exact bind_eq_ok.mpr ⟨(), hcount, bind_eq_ok.mpr ⟨ivs, hivs, hiv⟩⟩

/-- On any other number of operands it has none, whatever they are. -/
theorem evaluate_of_not_admits (ho : o.IsOnIntervals) (hinputs : inputs ≠ [])
    (h : ¬ o.Admits inputs.length) :
    ∃ n, o.arity? = some n ∧
      o.evaluate inputs v = .error (.operandCount o.name n inputs.length) := by
  obtain ⟨n, harity, hcount⟩ := checkCount_of_not_admits (v := v) ho hinputs h
  refine ⟨n, harity, ?_⟩
  rw [ho.evaluate_eq, hcount]
  rfl

/-- Where the first operand is lacking it may as well be written. -/
theorem evaluate_flowing_first (h : o.LacksFirst inputs.length) :
    o.evaluate inputs v = o.evaluate (v :: inputs) v := by
  have hcompleted : o.completed (v :: inputs) v = o.completed inputs v := by
    rw [completed_of_lacksFirst h, completed_of_not_lacksFirst h.not_succ]
  unfold evaluate
  rw [hcompleted]

end Operator

/-! ## Steps -/

namespace Walk

variable {p : Path} {c : Catalogue} {w w' : Walk} {index : Nat} {o spelled : Operator}
  {operands : List Operand} {inputs : List Value} {v : Value} {l : Level} {ls : List Level}
  {before : List Step} {branch : Option Nat}

/-- Every step that the operands refer to has an integer as its result. -/
def HasIntegers (w : Walk) (operands : List Operand) : Prop :=
  ∀ target, .step target ∈ operands → ∃ iv, w.results[target]? = some (.integer iv)

theorem HasIntegers.orCurrent (h : w.HasIntegers operands) :
    w.HasIntegers (operandsOrCurrent operands) := by
  intro target htarget
  cases operands with
  | nil => simp [operandsOrCurrent] at htarget
  | cons operand operands => exact h target htarget

theorem length_operandsOrCurrent (operands : List Operand) :
    (operandsOrCurrent operands).length = max 1 operands.length := by
  cases operands with
  | nil => rfl
  | cons operand operands => exact (Nat.max_eq_right (Nat.le_add_left 1 _)).symm

/-- Without operands an operator is given one, the flowing value. If it takes no other it may lack
that one in any case; if it takes two, or any number, the one is completed once more. -/
theorem admits_orCurrent (ho : o.IsOnIntervals) :
    o.Admits (operandsOrCurrent operands).length ↔
      o.Admits operands.length ∨ operands = [] ∧ (o.arity? = some 2 ∨ o.arity? = none) := by
  have hzero := ho.arity_ne_zero
  rw [length_operandsOrCurrent, ← List.length_eq_zero_iff]
  unfold Operator.Admits
  cases harity : o.arity? with
  | none =>
    simp only [reduceCtorEq, or_true, and_true]
    omega
  | some n =>
    simp only [harity, ne_eq, Option.some.injEq, reduceCtorEq, or_false] at hzero ⊢
    omega

theorem mapM_operandValue_total (index : Nat) (h : w.HasIntegers operands)
    (hv : ∃ iv, v = .integer iv) :
    ∃ inputs, operands.mapM (w.operandValue index v) = .ok inputs ∧ AllIntegers inputs := by
  induction operands with
  | nil => exact ⟨[], rfl, fun u hu => by simp at hu⟩
  | cons operand operands ih =>
    obtain ⟨inputs, hinputs, hall⟩ := ih fun target ht => h target (List.mem_cons_of_mem _ ht)
    have hvalue : ∃ iv, w.operandValue index v operand = .ok (.integer iv) := by
      cases operand with
      | current =>
        obtain ⟨iv, rfl⟩ := hv
        exact ⟨iv, rfl⟩
      | const k => exact ⟨_, rfl⟩
      | range iv => exact ⟨iv, rfl⟩
      | step target =>
        obtain ⟨iv, hiv⟩ := h target List.mem_cons_self
        exact ⟨iv, resultOf_eq_ok.mpr hiv⟩
    obtain ⟨iv, hiv⟩ := hvalue
    refine ⟨.integer iv :: inputs, ?_, ?_⟩
    · rw [List.mapM_cons, hiv, hinputs]
      rfl
    · intro u hu
      rcases List.mem_cons.mp hu with rfl | hu
      · exact ⟨iv, rfl⟩
      · exact hall u hu

/-! ### Levels -/

theorem numericLevel_of_admits (index : Nat) (ho : o.IsOnIntervals)
    (hoperands : w.HasIntegers operands) (hl : ∃ iv, l.value = .integer iv)
    (h : o.Admits (operandsOrCurrent operands).length) :
    ∃ l', w.numericLevel index (.builtin o) (operandsOrCurrent operands) l = .ok l' := by
  obtain ⟨inputs, hinputs, hall⟩ := mapM_operandValue_total index hoperands.orCurrent hl
  have hlength := (forall₂_of_mapM_eq_ok hinputs).length_eq
  have hintegers : AllIntegers (l.value :: inputs) := by
    intro u hu
    rcases List.mem_cons.mp hu with rfl | hu
    · exact hl
    · exact hall u hu
  obtain ⟨iv, hiv⟩ :=
    Operator.evaluate_of_admits ho (inputs_ne_nil hinputs) hintegers (hlength ▸ h)
  exact ⟨_, numericLevel_eq_ok.mpr ⟨inputs, iv, hinputs, hiv, rfl⟩⟩

/-- The fault names the operator, the number of operands that it takes and the number that it got;
an operator without operands got the flowing value. -/
theorem numericLevel_of_not_admits (index : Nat) (ho : o.IsOnIntervals)
    (hoperands : w.HasIntegers operands) (hl : ∃ iv, l.value = .integer iv)
    (h : ¬ o.Admits (operandsOrCurrent operands).length) :
    ∃ n, o.arity? = some n ∧
      w.numericLevel index (.builtin o) (operandsOrCurrent operands) l =
        .error (.malformed index
          (.operandCount o.name n (operandsOrCurrent operands).length)) := by
  obtain ⟨inputs, hinputs, -⟩ := mapM_operandValue_total index hoperands.orCurrent hl
  have hlength := (forall₂_of_mapM_eq_ok hinputs).length_eq
  rw [hlength] at h ⊢
  obtain ⟨n, harity, hfault⟩ :=
    Operator.evaluate_of_not_admits (v := l.value) ho (inputs_ne_nil hinputs) h
  refine ⟨n, harity, ?_⟩
  unfold numericLevel NumericTarget.evaluate
  rw [hinputs]
  show (o.evaluate inputs l.value).mapError _ >>= _ = _
  rw [hfault]
  rfl

theorem numericLevel_flowing_first (h : o.LacksFirst operands.length) :
    w.numericLevel index (.builtin o) (.current :: operands) l =
      w.numericLevel index (.builtin o) operands l := by
  unfold numericLevel NumericTarget.evaluate
  rw [List.mapM_cons]
  cases hinputs : operands.mapM (w.operandValue index l.value) with
  | error e => rfl
  | ok inputs =>
    have hlength := (forall₂_of_mapM_eq_ok hinputs).length_eq
    have hsame := Operator.evaluate_flowing_first (v := l.value) (hlength ▸ h)
    show (o.evaluate (l.value :: inputs) l.value).mapError _ >>= _ =
      (o.evaluate inputs l.value).mapError _ >>= _
    rw [hsame]

theorem mapLevels_total {f : Level → Except Fault Level} (h : ∀ l ∈ ls, ∃ l', f l = .ok l') :
    ∃ ls', mapLevels f ls = .ok ls' := by
  induction ls with
  | nil => exact ⟨[], rfl⟩
  | cons l ls ih =>
    obtain ⟨ls', hls'⟩ := ih fun l hl => h l (List.mem_cons_of_mem _ hl)
    obtain ⟨l', hl'⟩ := h l List.mem_cons_self
    exact ⟨l' :: ls', bind_eq_ok.mpr ⟨ls', hls', bind_eq_ok.mpr ⟨l', hl', rfl⟩⟩⟩

theorem mapLevels_eq_error {f : Level → Except Fault Level} {e : Fault} (hls : ls ≠ [])
    (h : ∀ l ∈ ls, f l = .error e) : mapLevels f ls = .error e := by
  induction ls with
  | nil => exact absurd rfl hls
  | cons l ls ih =>
    unfold mapLevels
    cases ls with
    | nil =>
      rw [h l List.mem_cons_self]
      rfl
    | cons l' ls =>
      rw [ih (List.cons_ne_nil _ _) fun l hl => h l (List.mem_cons_of_mem _ hl)]
      rfl

/-! ### Operations -/

theorem applyNumeric_builtin (htarget : numericTarget c index spelled = .ok (.builtin o)) :
    w.applyNumeric c index spelled operands = (do
      let ls ← mapLevels (w.numericLevel index (.builtin o) (operandsOrCurrent operands)) w.levels
      let w := { w with levels := ls }.settle index "finite upper bound" fun l =>
        l.value.hasFiniteHigh
      return (w, numericExplanation index (← w.top index))) := by
  unfold applyNumeric
  rw [htarget]
  rfl

/-- Where one operand is lacking the flowing value is the first. -/
theorem applyNumeric_flowing_first (htarget : numericTarget c index spelled = .ok (.builtin o))
    (h : o.LacksFirst operands.length) :
    w.applyNumeric c index spelled operands =
      w.applyNumeric c index spelled (.current :: operands) := by
  rw [applyNumeric_builtin htarget, applyNumeric_builtin htarget]
  cases operands with
  | nil => rfl
  | cons operand operands =>
    have hlevel : w.numericLevel index (.builtin o) (.current :: operand :: operands) =
        w.numericLevel index (.builtin o) (operand :: operands) :=
      funext fun _ => numericLevel_flowing_first h
    show _ = mapLevels (w.numericLevel index (.builtin o) (.current :: operand :: operands)) _ >>= _
    rw [hlevel]
    rfl

section Integers

variable (htarget : numericTarget c index spelled = .ok (.builtin o)) (ho : o.IsOnIntervals)
  (hoperands : w.HasIntegers operands) (hlevels : w.levels ≠ [])
  (hintegers : ∀ l ∈ w.levels, ∃ iv, l.value = .integer iv)

include htarget ho hoperands hlevels hintegers

theorem applyNumeric_of_admits (h : o.Admits (operandsOrCurrent operands).length) :
    ∃ r, w.applyNumeric c index spelled operands = .ok r := by
  have hlevel (l : Level) (hl : l ∈ w.levels) :=
    numericLevel_of_admits index ho hoperands (hintegers l hl) h
  obtain ⟨ls, hls⟩ := mapLevels_total hlevel
  have hlength := (forall₂_of_mapLevels_eq_ok hls).length_eq
  obtain ⟨notes, hsettle⟩ := settle_eq { w with levels := ls } index "finite upper bound" fun l =>
    l.value.hasFiniteHigh
  cases ls with
  | nil => exact absurd (List.length_eq_zero_iff.mp hlength) hlevels
  | cons l ls =>
    have htop : ∃ l', ({ w with levels := l :: ls }.settle index "finite upper bound" fun l =>
        l.value.hasFiniteHigh).top index = .ok l' := by
      rw [hsettle]
      exact ⟨_, rfl⟩
    obtain ⟨l', hl'⟩ := htop
    rw [applyNumeric_builtin htarget]
    exact ⟨_, bind_eq_ok.mpr ⟨l :: ls, hls, bind_eq_ok.mpr ⟨l', hl', rfl⟩⟩⟩

theorem applyNumeric_of_not_admits (h : ¬ o.Admits (operandsOrCurrent operands).length) :
    ∃ n, o.arity? = some n ∧
      w.applyNumeric c index spelled operands =
        .error (.malformed index
          (.operandCount o.name n (operandsOrCurrent operands).length)) := by
  obtain ⟨l₀, hl₀⟩ := List.exists_mem_of_ne_nil _ hlevels
  obtain ⟨n, harity, -⟩ :=
    numericLevel_of_not_admits index ho hoperands (hintegers l₀ hl₀) h
  refine ⟨n, harity, ?_⟩
  rw [applyNumeric_builtin htarget, mapLevels_eq_error hlevels]
  · rfl
  · intro l hl
    obtain ⟨n', harity', hlevel⟩ :=
      numericLevel_of_not_admits index ho hoperands (hintegers l hl) h
    obtain rfl := Option.some.inj (harity.symm.trans harity')
    exact hlevel

end Integers

/-! ### Steps of a walk -/

/-- A step is taken if its operation applies to the levels that are left. -/
theorem step_total {r : Walk × String} {op : Operation}
    (h : apply p c index op { w with levels := leave p branch w.levels } = .ok r)
    (hlevels : leave p branch w.levels ≠ []) : ∃ w', w.step p c index ⟨op, branch⟩ = .ok w' := by
  obtain ⟨w₁, why⟩ := r
  obtain ⟨l, ls, hls⟩ := List.exists_cons_of_ne_nil (levels_ne_nil_of_apply h (Or.inl hlevels))
  exact ⟨_, bind_eq_ok.mpr ⟨(w₁, why), h, bind_eq_ok.mpr ⟨l, top_eq_ok.mpr ⟨ls, hls⟩, rfl⟩⟩⟩

theorem step_eq_error {op : Operation} {e : Fault}
    (h : apply p c index op { w with levels := leave p branch w.levels } = .error e) :
    w.step p c index ⟨op, branch⟩ = .error e := by
  show apply p c index op { w with levels := leave p branch w.levels } >>= _ = _
  rw [h]
  rfl

theorem Reached.integers (hw : Reached p c before w)
    (hvalue : ∃ l ∈ w.levels, ∃ iv, l.value = .integer iv) :
    ∀ l ∈ w.levels, ∃ iv, l.value = .integer iv := by
  obtain ⟨k, hk⟩ := hw.kind
  obtain ⟨l₀, hl₀, iv, hiv⟩ := hvalue
  have hnumeric : k = .numeric := by
    rw [← hk l₀ hl₀, hiv]
    rfl
  intro l hl
  have hkind := hk l hl
  cases hl : l.value with
  | integer iv => exact ⟨iv, rfl⟩
  | text g =>
    rw [hnumeric, hl] at hkind
    contradiction

/-- The levels that a step is applied to are some of those before it, and at least one. -/
theorem Reached.left_integers (hw : Reached p c before w)
    (hvalue : ∃ l ∈ w.levels, ∃ iv, l.value = .integer iv) (branch : Option Nat) :
    leave p branch w.levels ≠ [] ∧
      ∀ l ∈ leave p branch w.levels, ∃ iv, l.value = .integer iv := by
  refine ⟨?_, fun l hl => hw.integers hvalue l (mem_of_mem_leave hl)⟩
  obtain ⟨l, hl, -⟩ := hvalue
  exact leave_ne_nil (List.ne_nil_of_mem hl)

section Reached

variable (hw : Reached p c before w) (hvalue : ∃ l ∈ w.levels, ∃ iv, l.value = .integer iv)
  (hoperands : w.HasIntegers operands)
  (htarget : numericTarget c before.length spelled = .ok (.builtin o)) (ho : o.IsOnIntervals)
  (branch : Option Nat)

include hw hvalue hoperands htarget ho

theorem Reached.step_of_admits (h : o.Admits (operandsOrCurrent operands).length) :
    ∃ w', w.step p c before.length ⟨.numeric spelled operands, branch⟩ = .ok w' := by
  obtain ⟨hlevels, hintegers⟩ := hw.left_integers hvalue branch
  obtain ⟨r, hr⟩ := applyNumeric_of_admits (w := { w with levels := leave p branch w.levels })
    htarget ho hoperands hlevels hintegers h
  exact step_total hr hlevels

theorem Reached.step_of_not_admits (h : ¬ o.Admits (operandsOrCurrent operands).length) :
    ∃ n, o.arity? = some n ∧
      w.step p c before.length ⟨.numeric spelled operands, branch⟩ =
        .error (.malformed before.length (.operandCount o.name n (max 1 operands.length))) := by
  obtain ⟨hlevels, hintegers⟩ := hw.left_integers hvalue branch
  obtain ⟨n, harity, hfault⟩ :=
    applyNumeric_of_not_admits (w := { w with levels := leave p branch w.levels })
      htarget ho hoperands hlevels hintegers h
  rw [length_operandsOrCurrent] at hfault
  exact ⟨n, harity, step_eq_error hfault⟩

end Reached

end Walk

/-- A numeric step of an operator on integers, of its own name or an alias, where the value is an
integer and all operands are: it is accepted for the counts of operands that the operator admits,
and without operands if it takes two or any number. Every other count is a fault of the step, which
names the operator, its number of operands and the number that it got. Where the first operand is
lacking it is the flowing value, and where two are, both are. -/
theorem Walk.accepted_iff_admits {p : Path} {c : Catalogue} {before : List Step} {w : Walk}
    {spelled o : Operator} {operands : List Operand} (branch : Option Nat)
    (hw : Walk.Reached p c before w) (hvalue : ∃ l ∈ w.levels, ∃ iv, l.value = .integer iv)
    (hoperands : w.HasIntegers operands)
    (htarget : Walk.numericTarget c before.length spelled = .ok (.builtin o))
    (ho : o.IsOnIntervals) :
    ((∃ w', w.step p c before.length ⟨.numeric spelled operands, branch⟩ = .ok w') ↔
        o.Admits operands.length ∨ operands = [] ∧ (o.arity? = some 2 ∨ o.arity? = none)) ∧
      (¬ (o.Admits operands.length ∨ operands = [] ∧ (o.arity? = some 2 ∨ o.arity? = none)) →
        ∃ n, o.arity? = some n ∧
          w.step p c before.length ⟨.numeric spelled operands, branch⟩ =
            .error (.malformed before.length
              (.operandCount o.name n (max 1 operands.length)))) ∧
      (o.LacksFirst operands.length → ∀ u : Walk,
        u.applyNumeric c before.length spelled operands =
          u.applyNumeric c before.length spelled (.current :: operands)) ∧
      (o.LacksFirst 1 → ∀ u : Walk,
        u.applyNumeric c before.length spelled [] =
          u.applyNumeric c before.length spelled [.current, .current]) := by
  have hrefused := hw.step_of_not_admits hvalue hoperands htarget ho branch
  rw [← admits_orCurrent ho]
  have htwice (h : o.LacksFirst [Operand.current].length) (u : Walk) :
      u.applyNumeric c before.length spelled [] =
        u.applyNumeric c before.length spelled [.current, .current] :=
    applyNumeric_flowing_first htarget h
  refine ⟨⟨?_, hw.step_of_admits hvalue hoperands htarget ho branch⟩, hrefused,
    fun h u => applyNumeric_flowing_first htarget h, htwice⟩
  rintro ⟨w', hstep⟩
  by_contra h
  obtain ⟨n, -, hfault⟩ := hrefused h
  rw [hfault] at hstep
  contradiction

/-- An offset within a byte, and an operator that is written without operands. -/
def bareOffset (o : Operator) : Path :=
  { version := pathVersion
    branches := []
    steps :=
      [⟨.source (.ofInteger "offset" .i32), none⟩, ⟨.numeric .bitAnd [.const 255], none⟩,
        ⟨.numeric o [], none⟩, ⟨.sink .loopBound, none⟩] }

theorem Walk.accepted_bareOffset :
    ∃ w, Walk.steps (bareOffset .sub) .empty 0 ((bareOffset .sub).steps.take 2) {} = .ok w ∧
      (∃ w', w.step (bareOffset .sub) .empty 2 ⟨.numeric .sub [.step 1], none⟩ = .ok w') ∧
      w.step (bareOffset .sub) .empty 2 ⟨.numeric .clamp [.step 1], none⟩ =
        .error (.malformed 2 (.operandCount "clamp" 3 1)) := by
  have hknown :
      (Walk.steps (bareOffset .sub) .empty 0 ((bareOffset .sub).steps.take 2) {}).toOption.map
        (fun w => (w.levels.map (·.value), w.results[1]?)) =
      some ([.integer (.range 0 255)], some (.integer (.range 0 255))) := by
    decide +kernel
  obtain ⟨w, hw, hknown⟩ := exists_ok_of_map_toOption hknown
  obtain ⟨hvalues, hresult⟩ := Prod.mk.inj hknown
  have hreached : Walk.Reached (bareOffset .sub) .empty ((bareOffset .sub).steps.take 2) w :=
    Walk.reached_of_steps hw
  have hvalue : ∃ l ∈ w.levels, ∃ iv, l.value = .integer iv := by
    obtain ⟨l, hl, hv⟩ := List.mem_map.mp (hvalues ▸ List.mem_singleton_self _)
    exact ⟨l, hl, _, hv⟩
  have hoperands : w.HasIntegers [.step 1] := by
    intro target htarget
    obtain rfl := Operand.step.inj (List.mem_singleton.mp htarget)
    exact ⟨_, hresult⟩
  have hsub : Walk.numericTarget .empty 2 .sub = .ok (.builtin .sub) := rfl
  have hclamp : Walk.numericTarget .empty 2 .clamp = .ok (.builtin .clamp) := rfl
  obtain ⟨hadmitted, -⟩ :=
    Walk.accepted_iff_admits none hreached hvalue hoperands hsub trivial
  obtain ⟨-, hlacking, -⟩ :=
    Walk.accepted_iff_admits none hreached hvalue hoperands hclamp trivial
  refine ⟨w, hw, hadmitted.mpr (Or.inl (Or.inr rfl)), ?_⟩
  obtain ⟨n, harity, hfault⟩ := hlacking (by simp [Operator.Admits, Operator.arity?])
  obtain rfl := Option.some.inj harity
  exact hfault

/-- A difference needs two operands, one of which may be lacking, and a maximum needs one at least.
Without any, both take the offset on both sides, and a loop up to the result is safe. -/
theorem bareOffset_safe_of_no_operands :
    ¬ Operator.sub.Admits 0 ∧ ¬ Operator.max.Admits 0 ∧
      ((paging 1000 .empty).classify (bareOffset .sub)).outcome = .safe ∧
      ((paging 1000 .empty).classify (bareOffset .max)).outcome = .safe := by
  refine ⟨?_, Nat.not_succ_le_zero 0, by decide +kernel, by decide +kernel⟩
  rintro (h | h) <;> contradiction

end FlowSafety
