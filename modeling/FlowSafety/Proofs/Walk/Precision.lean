import FlowSafety.Proofs.Interval.Monotone
import FlowSafety.Proofs.Numeric.Operators

/-!
# Leaving a branch loses precision

A guard makes the value of its level smaller than that of the level beneath, and every numeric
operation is monotone, so along a path over integers the interval of a level stays within those of
the levels around it. The value that takes over when a branch is left is never more precise than the
one that was dropped.

* `Operator.onIntervals_refines` — an operator is monotone in all of its operands
* `Branch.refine_refines` — a guard makes an interval smaller
* `Walk.IsOrdered.step` — a step keeps the levels ordered by inclusion
-/

namespace FlowSafety

/-! ## Values -/

namespace Value

variable {u v v' : Value}

/-- The value is an integer, and its interval is written canonically. -/
def IsInterval : Value → Prop
  | .integer iv => iv.IsCanonical
  | .text _ => False

/-- Both values are integers, and the interval of the one lies in that of the other. -/
def Refines : Value → Value → Prop
  | .integer iv, .integer iv' => iv.Refines iv'
  | _, _ => False

theorem IsInterval.refines_self (h : v.IsInterval) : v.Refines v := by
  cases v with
  | integer iv => exact Interval.IsCanonical.refines_self h
  | text g => exact h

theorem Refines.exists_integer (h : v.Refines v') :
    ∃ iv iv', v = .integer iv ∧ v' = .integer iv' ∧ iv.Refines iv' := by
  cases v with
  | text g => exact h.elim
  | integer iv =>
    cases v' with
    | text g => exact h.elim
    | integer iv' => exact ⟨iv, iv', rfl, rfl, h⟩

theorem Refines.isInterval (h : v.Refines v') : v.IsInterval := by
  obtain ⟨iv, iv', rfl, rfl, h⟩ := h.exists_integer
  exact h.left

theorem Refines.trans (huv : u.Refines v) (hvv : v.Refines v') : u.Refines v' := by
  obtain ⟨iv₁, iv₂, rfl, rfl, h⟩ := huv.exists_integer
  obtain ⟨iv₂, iv₃, hiv, rfl, h'⟩ := hvv.exists_integer
  cases hiv
  exact Interval.Refines.trans h h'

end Value

/-! ## Operators -/

namespace Operator

variable {o : Operator} {inputs inputs' : List Value} {v v' : Value} {iv : Interval}
  {ivs ivs' : List Interval} {name : String}

theorem foldTwo_refines {F : Interval → Interval → Interval}
    (hF : ∀ {a a' b b' : Interval}, a.Refines a' → b.Refines b' → (F a b).Refines (F a' b'))
    (h : List.Forall₂ Interval.Refines ivs ivs') (hiv : foldTwo name F ivs = .ok iv) :
    ∃ iv', foldTwo name F ivs' = .ok iv' ∧ iv.Refines iv' := by
  obtain ⟨⟩ | ⟨ha, ⟨⟩ | ⟨hb, hrest⟩⟩ := h
  · contradiction
  · contradiction
  · cases hiv
    exact ⟨_, rfl, Interval.refines_foldl hF (.cons hb hrest) ha⟩

/-- An operator is monotone in all of its operands, for the remainder where the divisor is not zero
alone. -/
theorem onIntervals_refines (h : List.Forall₂ Interval.Refines ivs ivs')
    (h0 : o = .rem → ivs[1]? ≠ some (.constant 0)) (hiv : o.onIntervals ivs = .ok iv) :
    ∃ iv', o.onIntervals ivs' = .ok iv' ∧ iv.Refines iv' := by
  unfold onIntervals at hiv
  split at hiv
  · obtain ⟨⟩ | ⟨ha, ⟨⟩ | ⟨hb, ⟨⟩⟩⟩ := h
    cases hiv
    exact ⟨_, rfl, ha.add hb⟩
  · obtain ⟨⟩ | ⟨ha, ⟨⟩ | ⟨hb, ⟨⟩⟩⟩ := h
    cases hiv
    exact ⟨_, rfl, ha.sub hb⟩
  · obtain ⟨⟩ | ⟨ha, ⟨⟩ | ⟨hb, ⟨⟩⟩⟩ := h
    cases hiv
    exact ⟨_, rfl, ha.mul hb⟩
  · obtain ⟨⟩ | ⟨ha, ⟨⟩ | ⟨hb, ⟨⟩⟩⟩ := h
    cases hiv
    exact ⟨_, rfl, ha.div hb⟩
  · obtain ⟨⟩ | ⟨ha, ⟨⟩ | ⟨hb, ⟨⟩⟩⟩ := h
    cases hiv
    exact ⟨_, rfl, ha.rem hb fun he => h0 rfl (congrArg some he)⟩
  · obtain ⟨⟩ | ⟨ha, ⟨⟩ | ⟨hb, ⟨⟩⟩⟩ := h
    cases hiv
    exact ⟨_, rfl, ha.bitAnd hb⟩
  · obtain ⟨⟩ | ⟨ha, ⟨⟩ | ⟨hb, ⟨⟩⟩⟩ := h
    cases hiv
    exact ⟨_, rfl, ha.shiftRight hb⟩
  · obtain ⟨⟩ | ⟨ha, ⟨⟩⟩ := h
    cases hiv
    exact ⟨_, rfl, ha.abs⟩
  · obtain ⟨⟩ | ⟨ha, ⟨⟩⟩ := h
    cases hiv
    exact ⟨_, rfl, ha.neg⟩
  · obtain ⟨⟩ | ⟨ha, ⟨⟩ | ⟨hb, ⟨⟩ | ⟨hc, ⟨⟩⟩⟩⟩ := h
    cases hiv
    exact ⟨_, rfl, ha.clamp hb hc⟩
  · exact foldTwo_refines Interval.Refines.minimum h hiv
  · exact foldTwo_refines Interval.Refines.maximum h hiv
  · exact foldTwo_refines Interval.Refines.join h hiv
  · contradiction

theorem intervals_refines (h : List.Forall₂ Value.Refines inputs inputs')
    (hivs : intervals name inputs = .ok ivs) :
    inputs = ivs.map .integer ∧
      ∃ ivs', intervals name inputs' = .ok ivs' ∧ List.Forall₂ Interval.Refines ivs ivs' := by
  induction h generalizing ivs with
  | nil =>
    cases hivs
    exact ⟨rfl, [], rfl, .nil⟩
  | cons hv _ ih =>
    obtain ⟨iv, iv', rfl, rfl, hiv⟩ := hv.exists_integer
    obtain ⟨rest, hrest, rfl⟩ := map_eq_ok.mp hivs
    obtain ⟨hinputs, rest', hrest', hrefines⟩ := ih hrest
    exact ⟨congrArg _ hinputs, iv' :: rest', map_eq_ok.mpr ⟨rest', hrest', rfl⟩,
      .cons hiv hrefines⟩

theorem onlyText_of_refines {g : TextGuarantee} (h : List.Forall₂ Value.Refines inputs inputs') :
    onlyText name inputs ≠ .ok g := by
  intro hg
  unfold onlyText at hg
  split at hg
  · obtain ⟨⟩ | ⟨hv, -⟩ := h
    exact hv.isInterval
  · contradiction
  · contradiction

theorem completed_refines (o : Operator) (h : List.Forall₂ Value.Refines inputs inputs')
    (hv : v.Refines v') :
    List.Forall₂ Value.Refines (o.completed inputs v) (o.completed inputs' v') := by
  unfold completed
  rw [h.length_eq]
  split
  · exact h
  · split
    · exact .cons hv h
    · exact h
  · split
    · exact .cons hv h
    · exact h

/-- The same on the values of the operands. -/
theorem evaluate_refines (h : List.Forall₂ Value.Refines inputs inputs') (hv : v.Refines v')
    (h0 : o = .rem → (o.completed inputs v)[1]? ≠ some (.integer (.constant 0)))
    (hiv : o.evaluate inputs v = .ok iv) :
    ∃ iv', o.evaluate inputs' v' = .ok iv' ∧ iv.Refines iv' := by
  have hcompleted := completed_refines o h hv
  unfold evaluate at hiv ⊢
  obtain ⟨⟨⟩, hcount, hiv⟩ := bind_eq_ok.mp hiv
  have hcount' : o.checkCount (o.completed inputs' v') = .ok () := by
    unfold checkCount at hcount ⊢
    rw [← hcompleted.length_eq]
    exact hcount
  dsimp only
  rw [hcount']
  have hon (hiv : (intervals o.name (o.completed inputs v) >>= o.onIntervals) = .ok iv) :
      ∃ iv', (intervals o.name (o.completed inputs' v') >>= o.onIntervals) = .ok iv' ∧
        iv.Refines iv' := by
    obtain ⟨ivs, hivs, hiv⟩ := bind_eq_ok.mp hiv
    obtain ⟨hinputs, ivs', hivs', hrefines⟩ := intervals_refines hcompleted hivs
    have hdivisor : o = .rem → ivs[1]? ≠ some (.constant 0) := by
      intro ho hone
      refine h0 ho ?_
      rw [hinputs, List.getElem?_map, hone]
      rfl
    obtain ⟨iv', hiv', hrefined⟩ := onIntervals_refines hrefines hdivisor hiv
    exact ⟨iv', bind_eq_ok.mpr ⟨ivs', hivs', hiv'⟩, hrefined⟩
  cases o with
  | parseInt type =>
    obtain ⟨g, hg, -⟩ := bind_eq_ok.mp hiv
    exact absurd hg (onlyText_of_refines hcompleted)
  | length =>
    obtain ⟨g, hg, -⟩ := bind_eq_ok.mp hiv
    exact absurd hg (onlyText_of_refines hcompleted)
  | enumOrdinal arity =>
    cases hiv
    exact ⟨_, rfl, (Interval.isCanonical_ofBounds _ _).refines_self⟩
  | enumValue values =>
    cases values with
    | nil => contradiction
    | cons z zs =>
      cases hiv
      exact ⟨_, rfl, (Interval.isCanonical_ofBounds _ _).refines_self⟩
  | call name => contradiction
  | _ => exact hon hiv

end Operator

/-! ## Guards -/

section Guards

variable {b : Branch} {iv iv' : Interval} {v v' : Value} {why : String}

theorem Interval.RefinedBy.refines (h : iv.RefinedBy b iv') (hiv : iv.IsCanonical) :
    iv'.Refines iv := by
  cases h with
  | compared _ =>
    unfold Interval.refined
    split
    · exact Interval.meet_refines hiv
    · exact hiv.refines_self
  | listed _ _ =>
    unfold Interval.within
    split
    · exact Interval.meet_refines hiv
    · exact ⟨Interval.isCanonical_empty, hiv, Interval.empty_subset iv⟩
  | unlisted _ _ => exact hiv.refines_self

/-- A guard makes an interval smaller. -/
theorem Branch.refine_refines (h : b.refine v = .ok (v', why)) (hv : v.IsInterval) :
    v'.Refines v := by
  cases v with
  | text g => exact hv.elim
  | integer iv =>
    obtain ⟨iv', rfl, hrefined⟩ := Branch.refine_integer_eq_ok h
    exact hrefined.refines hv

end Guards

/-! ## Paths -/

/-- The operation works on intervals: it reads an integer, or it applies an operator that is built in
or not known, and its intervals are written canonically. It transforms no text. -/
def Operation.IsOnIntervals (c : Catalogue) : Operation → Prop
  | .source src => ∃ type, src.kind = .integer type
  | .numeric o operands =>
    (∀ index f, Walk.numericTarget c index o ≠ .ok (.custom f)) ∧
      ∀ iv, .range iv ∈ operands → iv.IsCanonical
  | .string _ _ => False
  | _ => True

namespace Walk

variable {p : Path} {c : Catalogue} {w w' : Walk} {index : Nat} {s : Step} {ss : List Step}
  {operands : List Operand} {inputs inputs' : List Value} {u u' v v' : Value}

/-- The step takes a remainder, and its divisor is zero and nothing else on some level of the
branches that it is in. -/
def RemByZero (p : Path) (c : Catalogue) (index : Nat) (s : Step) (w : Walk) : Prop :=
  ∃ o operands, s.op = .numeric o operands ∧ numericTarget c index o = .ok (.builtin .rem) ∧
    ∃ l ∈ leave p s.branch w.levels, ∃ inputs,
      (operandsOrCurrent operands).mapM (w.operandValue index l.value) = .ok inputs ∧
        (Operator.rem.completed inputs l.value)[1]? = some (.integer (.constant 0))

/-! ## Levels -/

/-- The levels and the results are intervals, and every level lies in those further out. -/
structure IsOrdered (w : Walk) : Prop where
  levels : ∀ l ∈ w.levels, l.value.IsInterval
  nested : w.levels.Pairwise fun inner outer => inner.value.Refines outer.value
  results : ∀ v ∈ w.results, v.IsInterval

namespace IsOrdered

theorem operandValue {operand : Operand} (h : w.IsOrdered)
    (hrange : ∀ iv, operand = .range iv → iv.IsCanonical) (hv : v.Refines v')
    (hu : w.operandValue index v operand = .ok u)
    (hu' : w.operandValue index v' operand = .ok u') : u.Refines u' := by
  cases operand with
  | current =>
    cases hu
    cases hu'
    exact hv
  | const z =>
    cases hu
    cases hu'
    exact (Interval.isCanonical_constant z).refines_self
  | range iv =>
    cases hu
    cases hu'
    exact (hrange iv rfl).refines_self
  | step target =>
    obtain rfl := Except.ok.inj (hu.symm.trans hu')
    exact (h.results u (List.mem_of_getElem? (resultOf_eq_ok.mp hu))).refines_self

theorem mapM_operandValue (h : w.IsOrdered) (hrange : ∀ iv, .range iv ∈ operands → iv.IsCanonical)
    (hv : v.Refines v') (hinputs : operands.mapM (w.operandValue index v) = .ok inputs)
    (hinputs' : operands.mapM (w.operandValue index v') = .ok inputs') :
    List.Forall₂ Value.Refines inputs inputs' := by
  have hsame : List.Forall₂ (fun x y => x = y ∧ x ∈ operands) operands operands :=
    List.forall₂_same.mpr fun x hx => ⟨rfl, hx⟩
  refine forall₂_image hsame (forall₂_of_mapM_eq_ok hinputs) (forall₂_of_mapM_eq_ok hinputs') ?_
  rintro x _ u u' ⟨rfl, hx⟩ hu hu'
  exact h.operandValue (fun iv hiv => hrange iv (hiv ▸ hx)) hv hu hu'

/-- A known operator keeps the order of two levels. -/
theorem numericLevel {o : Operator} {l l' k k' : Level} (h : w.IsOrdered)
    (hrange : ∀ iv, .range iv ∈ operands → iv.IsCanonical) (hl : l.value.Refines l'.value)
    (h0 : o = .rem → ∀ inputs, operands.mapM (w.operandValue index l.value) = .ok inputs →
      (o.completed inputs l.value)[1]? ≠ some (.integer (.constant 0)))
    (hk : w.numericLevel index (.builtin o) operands l = .ok k)
    (hk' : w.numericLevel index (.builtin o) operands l' = .ok k') :
    k.value.Refines k'.value := by
  obtain ⟨inputs, iv, hinputs, hiv, rfl⟩ := numericLevel_eq_ok.mp hk
  obtain ⟨inputs', iv', hinputs', hiv', rfl⟩ := numericLevel_eq_ok.mp hk'
  have hrefines := h.mapM_operandValue hrange hl hinputs hinputs'
  obtain ⟨iv'', hiv'', hrefined⟩ :=
    Operator.evaluate_refines hrefines hl (fun ho => h0 ho inputs hinputs) hiv
  obtain rfl := Except.ok.inj (hiv'.symm.trans hiv'')
  exact hrefined

theorem leave (h : w.IsOrdered) (branch : Option Nat) :
    IsOrdered { w with levels := leave p branch w.levels } where
  levels := fun l hl => h.levels l (mem_of_mem_leave hl)
  nested := h.nested.sublist (leave_suffix p branch w.levels).sublist
  results := h.results

/-- What is settled does not matter. -/
theorem settled {ls : List Level} {notes : List String} (accepts : Level → Bool)
    (h : IsOrdered { w with levels := ls }) :
    IsOrdered { w with levels := ls.map (Level.settled accepts), notes := notes } where
  levels := by
    intro l' hl'
    obtain ⟨l, hl, rfl⟩ := List.mem_map.mp hl'
    rw [Level.settled_value]
    exact h.levels l hl
  nested := by
    rw [List.pairwise_map]
    refine h.nested.imp ?_
    intro inner outer hnested
    rw [Level.settled_value, Level.settled_value]
    exact hnested
  results := h.results

theorem enterBranch {id : Nat} {why : String} (h : w.IsOrdered)
    (hw : w.enterBranch p index id = .ok (w', why)) : w'.IsOrdered := by
  obtain ⟨b, l, ls, v, notes, -, hls, hv, rfl⟩ := enterBranch_eq_ok hw
  have hnested := h.nested
  rw [hls] at hnested
  have hentered : v.Refines l.value :=
    Branch.refine_refines hv (h.levels l (hls ▸ List.mem_cons_self))
  refine settled _ ⟨?_, ?_, h.results⟩
  · intro l' hl'
    rcases List.mem_cons.mp hl' with rfl | hl'
    · rw [Level.enteredLevel_value]
      exact hentered.isInterval
    · exact h.levels l' hl'
  · refine List.pairwise_cons.mpr ⟨?_, h.nested⟩
    intro outer houter
    rw [Level.enteredLevel_value]
    rw [hls] at houter
    rcases List.mem_cons.mp houter with rfl | houter
    · exact hentered
    · exact hentered.trans ((List.pairwise_cons.mp hnested).1 outer houter)

theorem applyNumeric {o : Operator} {why : String} (h : w.IsOrdered)
    (hoperator : ∀ f, numericTarget c index o ≠ .ok (.custom f))
    (hrange : ∀ iv, .range iv ∈ operands → iv.IsCanonical)
    (h0 : numericTarget c index o = .ok (.builtin .rem) → ∀ l ∈ w.levels, ∀ inputs,
      (operandsOrCurrent operands).mapM (w.operandValue index l.value) = .ok inputs →
        (Operator.rem.completed inputs l.value)[1]? ≠ some (.integer (.constant 0)))
    (hw : w.applyNumeric c index o operands = .ok (w', why)) : w'.IsOrdered := by
  rcases applyNumeric_eq_ok hw with ⟨name, -, rfl⟩ | ⟨target, ls, notes, htarget, hknown, hls, rfl⟩
  · -- nothing is known on any level
    have hforgotten : ∀ l ∈ (w.forgetNumeric index name).levels, l.value = .integer .top := by
      intro l hl
      rw [forgetNumeric_levels] at hl
      obtain ⟨_, -, rfl⟩ := List.mem_map.mp hl
      rfl
    have htop : (Value.integer .top).IsInterval := Interval.isCanonical_top
    refine ⟨?_, ?_, h.results⟩
    · intro l hl
      rw [hforgotten l hl]
      exact htop
    · refine List.pairwise_of_forall_mem_list ?_
      intro l hl l' hl'
      rw [hforgotten l hl, hforgotten l' hl']
      exact htop.refines_self
  · cases target with
    | unknown name => exact absurd rfl (hknown name)
    | custom f => exact absurd htarget (hoperator f)
    | builtin o' =>
      have hrange' : ∀ iv, .range iv ∈ operandsOrCurrent operands → iv.IsCanonical := by
        intro iv hiv
        unfold operandsOrCurrent at hiv
        split at hiv
        · simp at hiv
        · exact hrange iv hiv
      have hstep {l l' k k' : Level} (hl : l ∈ w.levels) (hrefines : l.value.Refines l'.value)
          (hk : w.numericLevel index (.builtin o') (operandsOrCurrent operands) l = .ok k)
          (hk' : w.numericLevel index (.builtin o') (operandsOrCurrent operands) l' = .ok k') :
          k.value.Refines k'.value := by
        refine h.numericLevel hrange' hrefines ?_ hk hk'
        rintro rfl
        exact h0 htarget l hl
      refine settled _ ⟨?_, ?_, h.results⟩
      · intro k hk
        obtain ⟨l, hl, hlk⟩ := exists_of_forall₂_of_mem hls hk
        exact (hstep hl (h.levels l hl).refines_self hlk hlk).isInterval
      · exact pairwise_image h.nested hls fun l hl _ _ _ _ hnested hk hk' =>
          hstep hl hnested hk hk'

/-! ## Steps -/

theorem step (h : w.IsOrdered) (hs : s.op.IsOnIntervals c)
    (h0 : ¬ w.RemByZero p c index s) (hw : w.step p c index s = .ok w') : w'.IsOrdered := by
  obtain ⟨w₁, why, l, ls, happly, hls, rfl⟩ := step_eq_ok hw
  have hleft := h.leave (p := p) s.branch
  have hafter : w₁.IsOrdered := by
    cases hop : s.op with
    | source src =>
      rw [hop] at happly hs
      obtain ⟨rfl, -⟩ := Prod.mk.inj (Except.ok.inj happly)
      obtain ⟨type, htype⟩ := hs
      refine ⟨?_, List.pairwise_singleton _ _, h.results⟩
      intro l hl
      obtain rfl := List.mem_singleton.mp hl
      show (sourceValue src.kind).IsInterval
      rw [htype]
      cases type <;> exact Interval.isCanonical_ofBounds _ _
    | guard id =>
      rw [hop] at happly
      exact hleft.enterBranch happly
    | numeric o operands =>
      rw [hop] at happly hs
      refine hleft.applyNumeric (hs.1 index) hs.2 ?_ happly
      intro htarget l hl inputs hinputs hzero
      exact h0 ⟨o, operands, hop, htarget, l, hl, inputs, hinputs, hzero⟩
    | string name arguments =>
      rw [hop] at hs
      exact hs.elim
    | sink k =>
      rw [hop] at happly
      obtain ⟨rfl, -⟩ := Prod.mk.inj (Except.ok.inj happly)
      exact ⟨hleft.levels, hleft.nested, h.results⟩
  refine ⟨hafter.levels, hafter.nested, ?_⟩
  intro v hv
  rcases List.mem_append.mp hv with hv | hv
  · exact hafter.results v hv
  · obtain rfl := List.mem_singleton.mp hv
    exact hafter.levels l (hls ▸ List.mem_cons_self)

end IsOrdered

theorem Reached.isOrdered (h : Reached p c ss w) (hp : ∀ s ∈ p.steps, s.op.IsOnIntervals c)
    (h0 : ∀ ts s w, ts ++ [s] <+: p.steps → Reached p c ts w → ¬ w.RemByZero p c ts.length s)
    (hss : ss <+: p.steps) : w.IsOrdered := by
  induction h with
  | start => exact ⟨fun _ h => by simp at h, .nil, fun _ h => by simp at h⟩
  | @step ss s w w' hw hstep ih =>
    have hs : s ∈ p.steps := hss.subset (List.mem_append_right ss List.mem_cons_self)
    exact (ih ((List.prefix_append _ _).trans hss)).step (hp s hs) (h0 ss s w hss hw) hstep

end Walk

/-- Along a path on intervals, unless it takes a remainder by zero alone, the interval of every
level lies in those of the levels beneath. Every operator on intervals is monotone in all of its
operands, the remainder where the divisor of the smaller operands is not zero alone. -/
theorem inner_level_refines_outer {p : Path} {c : Catalogue}
    (hp : ∀ s ∈ p.steps, s.op.IsOnIntervals c)
    (h0 : ∀ ss s w, ss ++ [s] <+: p.steps → Walk.Reached p c ss w →
      ¬ w.RemByZero p c ss.length s) :
    (∀ ss w, ss <+: p.steps → Walk.Reached p c ss w →
      w.levels.Pairwise fun inner outer => inner.value.Refines outer.value) ∧
    (∀ (o : Operator) (ivs ivs' : List Interval) (iv : Interval),
      List.Forall₂ Interval.Refines ivs ivs' → (o = .rem → ivs[1]? ≠ some (.constant 0)) →
        o.onIntervals ivs = .ok iv → ∃ iv', o.onIntervals ivs' = .ok iv' ∧ iv.Refines iv') :=
  ⟨fun _ _ hss hw => (hw.isOrdered hp h0 hss).nested,
    fun _ _ _ _ h hdivisor hiv => Operator.onIntervals_refines h hdivisor hiv⟩

/-- A count that is compared with a limit, tripled, and reduced to its last digit. -/
def lastDigit : Path :=
  { version := pathVersion
    branches := [{ parent := none, condition := .compare .lt 100, outcome := .passed }]
    steps :=
      [⟨.source (.ofInteger "count" .i32), none⟩, ⟨.guard 0, some 0⟩,
        ⟨.numeric .mul [.const 3], some 0⟩, ⟨.numeric .rem [.current, .const 10], some 0⟩,
        ⟨.sink .loopBound, some 0⟩] }

theorem isOnIntervals_lastDigit {s : Step} (hs : s ∈ lastDigit.steps) :
    s.op.IsOnIntervals .empty := by
  simp only [lastDigit, List.mem_cons, List.not_mem_nil, or_false] at hs
  rcases hs with rfl | rfl | rfl | rfl | rfl
  · exact ⟨.i32, rfl⟩
  · trivial
  · exact ⟨fun _ _ h => (nomatch h), fun _ h => by simp at h⟩
  · exact ⟨fun _ _ h => (nomatch h), fun _ h => by simp at h⟩
  · trivial

theorem not_remByZero_lastDigit (index : Nat) {s : Step} (hs : s ∈ lastDigit.steps) (w : Walk) :
    ¬ w.RemByZero lastDigit .empty index s := by
  rintro ⟨o, operands, hop, htarget, l, -, inputs, hinputs, hzero⟩
  simp only [lastDigit, List.mem_cons, List.not_mem_nil, or_false] at hs
  rcases hs with rfl | rfl | rfl | rfl | rfl <;> cases hop <;> cases htarget
  have hvalues : inputs = [l.value, .integer (.constant 10)] := (Except.ok.inj hinputs).symm
  rw [hvalues] at hzero
  have hten : (some (.integer (.constant 10)) : Option Value) ≠ some (.integer (.constant 0)) := by
    decide
  exact hten hzero

theorem inner_level_refines_outer_lastDigit :
    ∃ w, Walk.steps lastDigit .empty 0 (lastDigit.steps.take 3) {} = .ok w ∧
      w.levels.map (·.value) = [.integer (.range (-6442450944) 297),
        .integer (.range (-6442450944) 6442450941)] ∧
      w.levels.Pairwise (fun inner outer => inner.value.Refines outer.value) ∧
      ∃ iv, Operator.onIntervals .rem [.range 0 100, .range 3 10] = .ok iv ∧
        (Interval.range 0 9).Refines iv := by
  have hvalues :
      (Walk.steps lastDigit .empty 0 (lastDigit.steps.take 3) {}).toOption.map
        (·.levels.map (·.value)) = some [.integer (.range (-6442450944) 297),
          .integer (.range (-6442450944) 6442450941)] := by
    decide +kernel
  obtain ⟨hlevels, hoperators⟩ := inner_level_refines_outer (fun _ => isOnIntervals_lastDigit)
    fun ss s w hss _ => not_remByZero_lastDigit ss.length
      (hss.subset (List.mem_append_right ss List.mem_cons_self)) w
  obtain ⟨w, hw, hvalues⟩ := exists_ok_of_map_toOption hvalues
  have hdividend : (Interval.range 0 29).Refines (.range 0 100) :=
    ⟨by decide, by decide, Interval.subset_of_ends (by decide) (by decide)⟩
  have hdivisor : (Interval.constant 10).Refines (.range 3 10) :=
    ⟨by decide, by decide, Interval.subset_of_ends (by decide) (by decide)⟩
  exact ⟨w, hw, hvalues, hlevels _ w (List.take_prefix 3 _) (Walk.reached_of_steps hw),
    hoperators .rem [.range 0 29, .constant 10] [.range 0 100, .range 3 10] (.range 0 9)
      (.cons hdividend (.cons hdivisor .nil)) (fun _ => by decide) (by decide)⟩

end FlowSafety
