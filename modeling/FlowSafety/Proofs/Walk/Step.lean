import FlowSafety.Proofs.Results
import FlowSafety.Walk.Basic
import Mathlib.Data.List.Induction

/-!
# What a step of a walk does

Every operation has one inversion lemma here, which says what the walk looks like after it has
succeeded. Properties of walks are proved from these lemmas, without unfolding the operations again.

* `Branch.refine_text_eq_ok`, `Branch.refine_integer_eq_ok` — what a guard does to a value
* `step_eq_ok` — a step leaves branches, applies its operation and records the innermost value
* `enterBranch_eq_ok`, `applyNumeric_eq_ok`, `applyText_eq_ok` — what the operations do to levels
* `Reached` — the walk after some steps, one step after another
-/

namespace FlowSafety

/-! ## Refinement -/

section Refinement

variable {b : Branch} {g : TextGuarantee} {iv : Interval} {v : Value} {why : String}

/-- What a branch makes of the guarantee of a text. -/
inductive TextGuarantee.RefinedBy (b : Branch) (g : TextGuarantee) : TextGuarantee → Prop
  /-- Nothing is learned from a guard that was not passed. -/
  | kept : b.outcome ≠ .passed → RefinedBy b g g
  | matched {pattern why : String} {full : Bool} {g' : TextGuarantee} : b.outcome = .passed →
      b.condition = .matchesPattern pattern full → g.matching pattern full = .ok (g', why) →
      RefinedBy b g g'
  | listed {values : TextSet} : b.outcome = .passed → b.condition = .inAllowList values →
      RefinedBy b g (g.within values)

/-- What a branch makes of an interval. -/
inductive Interval.RefinedBy (b : Branch) (iv : Interval) : Interval → Prop
  | compared {c : Comparison} {bound : Int64} : b.condition = .compare c bound →
      RefinedBy b iv (iv.refined (if b.outcome = .passed then c else c.negate) bound).1
  | listed {values : TextSet} : b.outcome = .passed → b.condition = .inAllowList values →
      RefinedBy b iv (iv.within values)
  | unlisted {values : TextSet} : b.outcome ≠ .passed → b.condition = .inAllowList values →
      RefinedBy b iv iv

/-- A text stays a text on a branch. -/
theorem Branch.refine_text_eq_ok (h : b.refine (.text g) = .ok (v, why)) :
    ∃ g', v = .text g' ∧ g.RefinedBy b g' := by
  unfold refine at h
  cases hc : b.condition with
  | compare c bound =>
    rw [hc] at h
    contradiction
  | matchesPattern pattern full =>
    rw [hc] at h
    simp only at h
    split at h
    · next hpassed =>
      obtain ⟨⟨g', e⟩, hmatching, he⟩ := map_eq_ok.mp h
      obtain ⟨rfl, -⟩ := Prod.mk.inj he
      exact ⟨g', rfl, .matched hpassed hc hmatching⟩
    · next hfailed =>
      obtain ⟨rfl, -⟩ := Prod.mk.inj (Except.ok.inj h)
      exact ⟨g, rfl, .kept hfailed⟩
  | inAllowList values =>
    rw [hc] at h
    simp only at h
    split at h
    · next hpassed =>
      obtain ⟨rfl, -⟩ := Prod.mk.inj (Except.ok.inj h)
      exact ⟨_, rfl, .listed hpassed hc⟩
    · next hfailed =>
      obtain ⟨rfl, -⟩ := Prod.mk.inj (Except.ok.inj h)
      exact ⟨g, rfl, .kept hfailed⟩

/-- An integer stays an integer on a branch. -/
theorem Branch.refine_integer_eq_ok (h : b.refine (.integer iv) = .ok (v, why)) :
    ∃ iv', v = .integer iv' ∧ iv.RefinedBy b iv' := by
  unfold refine at h
  cases hc : b.condition with
  | compare c bound =>
    rw [hc] at h
    obtain ⟨rfl, -⟩ := Prod.mk.inj (Except.ok.inj h)
    exact ⟨_, rfl, .compared hc⟩
  | matchesPattern pattern full =>
    rw [hc] at h
    contradiction
  | inAllowList values =>
    rw [hc] at h
    simp only at h
    split at h
    · next hpassed =>
      obtain ⟨rfl, -⟩ := Prod.mk.inj (Except.ok.inj h)
      exact ⟨_, rfl, .listed hpassed hc⟩
    · next hfailed =>
      obtain ⟨rfl, -⟩ := Prod.mk.inj (Except.ok.inj h)
      exact ⟨iv, rfl, .unlisted hfailed hc⟩

/-- A pattern confines a text without known values to its shape, if there is one. -/
theorem TextGuarantee.matching_eq_ok {pattern : String} {full : Bool} {g' : TextGuarantee}
    (h : g.matching pattern full = .ok (g', why)) (hvalues : g.values = none) :
    (∃ shape, Pattern.shape? pattern full = some shape ∧
      g' = { charset := g.charset.confined shape.chars pattern
             maxLength := lesserBound g.maxLength shape.maxLength }) ∨ g' = g := by
  unfold matching at h
  rw [hvalues] at h
  simp only at h
  split at h
  · next shape hshape =>
    obtain ⟨rfl, -⟩ := Prod.mk.inj (Except.ok.inj h)
    exact Or.inl ⟨shape, hshape, rfl⟩
  · obtain ⟨rfl, -⟩ := Prod.mk.inj (Except.ok.inj h)
    exact Or.inr rfl

end Refinement

namespace Level

/-- The level where nothing is pending any more, if a test accepts it. -/
def settled (accepts : Level → Bool) (l : Level) : Level :=
  if accepts l then { l with pending := none } else l

theorem map_settled_none (ls : List Level) : ls.map (settled fun _ => false) = ls :=
  List.map_id ls

@[simp] theorem settled_value (accepts : Level → Bool) (l : Level) :
    (l.settled accepts).value = l.value := by
  unfold settled
  split <;> rfl

@[simp] theorem settled_branch (accepts : Level → Bool) (l : Level) :
    (l.settled accepts).branch = l.branch := by
  unfold settled
  split <;> rfl

theorem settled_pending (accepts : Level → Bool) (l : Level) :
    (l.settled accepts).pending = if accepts l then none else l.pending := by
  unfold settled
  split <;> rfl

end Level

namespace Walk

variable {p : Path} {c : Catalogue} {w w' : Walk} {index : Nat} {why : String}

/-! ## Levels -/

/-- Leaving branches only drops levels, and the outermost one stays. -/
theorem leave_suffix (p : Path) (branch : Option Nat) (ls : List Level) :
    leave p branch ls <:+ ls := by
  induction ls with
  | nil => exact List.suffix_refl _
  | cons inner ls ih =>
    cases ls with
    | nil => exact List.suffix_refl _
    | cons outer ls =>
      unfold leave
      split
      · exact List.suffix_refl _
      · exact ih.trans (List.suffix_cons inner _)

theorem mem_of_mem_leave {branch : Option Nat} {ls : List Level} {l : Level}
    (h : l ∈ leave p branch ls) : l ∈ ls :=
  (leave_suffix p branch ls).subset h

theorem forall₂_of_mapLevels_eq_ok {f : Level → Except Fault Level} {ls ls' : List Level}
    (h : mapLevels f ls = .ok ls') : List.Forall₂ (fun l l' => f l = .ok l') ls ls' := by
  induction ls generalizing ls' with
  | nil =>
    cases h
    exact .nil
  | cons l ls ih =>
    obtain ⟨tail, htail, h⟩ := bind_eq_ok.mp h
    obtain ⟨head, hhead, h⟩ := bind_eq_ok.mp h
    cases h
    exact .cons hhead (ih htail)

theorem top_eq_ok {l : Level} : w.top index = .ok l ↔ ∃ ls, w.levels = l :: ls := by
  unfold top
  cases w.levels with
  | nil => exact ⟨fun h => (nomatch h), fun ⟨_, h⟩ => (nomatch h)⟩
  | cons l' ls =>
    exact ⟨fun h => ⟨ls, by cases h; rfl⟩, fun ⟨_, h⟩ => by cases h; rfl⟩

theorem resultOf_eq_ok {target : Nat} {v : Value} :
    w.resultOf index target = .ok v ↔ w.results[target]? = some v := by
  unfold resultOf
  cases w.results[target]? with
  | none => exact ⟨fun h => (nomatch h), fun h => (nomatch h)⟩
  | some v' => exact ⟨fun h => by cases h; rfl, fun h => by cases h; rfl⟩

/-! ## Unrecognized names -/

/-- Settling changes only levels and notes. -/
theorem settle_eq (w : Walk) (index : Nat) (how : String) (accepts : Level → Bool) :
    ∃ notes, w.settle index how accepts =
      { w with levels := w.levels.map (Level.settled accepts), notes := notes } := by
  unfold settle
  split
  · exact ⟨_, rfl⟩
  · exact ⟨w.notes, rfl⟩

/-! ## Guards -/

/-- Whether entering a branch settles what is pending there. -/
def enteringSettles (b : Branch) (before after : Value) : Bool :=
  narrowsText before after && decide (b.outcome = .passed) || after.hasFiniteHigh

/-- Entering a branch puts a level with the refined value in front. It settles what is pending on
the levels of this branch, which are more than one where the branch is entered again. -/
theorem enterBranch_eq_ok {id : Nat} (h : w.enterBranch p index id = .ok (w', why)) :
    ∃ b l ls v notes, p.branches[id]? = some b ∧ w.levels = l :: ls ∧
      b.refine l.value = .ok (v, why) ∧
      w' = { w with
        levels := (enteredLevel l index id v :: w.levels).map
          (Level.settled fun k => enteringSettles b l.value v && decide (k.branch = some id))
        notes := notes } := by
  unfold enterBranch at h
  split at h
  · contradiction
  · next b hb =>
    obtain ⟨l, hl, h⟩ := bind_eq_ok.mp h
    obtain ⟨ls, hls⟩ := top_eq_ok.mp hl
    obtain ⟨⟨v, e⟩, hv, h⟩ := bind_eq_ok.mp h
    rw [mapError_eq_ok] at hv
    -- the result of every arm, with the test of its own
    have hend : ∃ notes, e = why ∧ w' = { w with
        levels := (enteredLevel l index id v :: w.levels).map
          (Level.settled fun k => enteringSettles b l.value v && decide (k.branch = some id))
        notes := notes } := by
      simp only at h
      unfold enteringSettles
      split at h
      · next hn =>
        obtain ⟨rfl, rfl⟩ := Prod.mk.inj (Except.ok.inj h)
        obtain ⟨notes, hs⟩ := settle_eq { w with levels := enteredLevel l index id v :: w.levels }
          index "validation guard" fun k => decide (k.branch = some id)
        rw [Bool.and_eq_true] at hn
        refine ⟨notes, rfl, hs.trans ?_⟩
        rw [hn.1, hn.2]
        rfl
      · next hn =>
        rw [Bool.not_eq_true] at hn
        rw [hn, Bool.false_or]
        split at h
        · next hf =>
          obtain ⟨rfl, rfl⟩ := Prod.mk.inj (Except.ok.inj h)
          obtain ⟨notes, hs⟩ :=
            settle_eq { w with levels := enteredLevel l index id v :: w.levels } index
              "finite upper bound" fun k => decide (k.branch = some id)
          refine ⟨notes, rfl, hs.trans ?_⟩
          rw [hf]
          rfl
        · next hf =>
          obtain ⟨rfl, rfl⟩ := Prod.mk.inj (Except.ok.inj h)
          rw [Bool.not_eq_true] at hf
          refine ⟨w.notes, rfl, ?_⟩
          simp only [hf, Bool.false_and, Level.map_settled_none]
    obtain ⟨notes, rfl, hw⟩ := hend
    exact ⟨b, l, ls, v, notes, hb, hls, hv, hw⟩

end Walk

namespace Level

variable (l : Level) (index : Nat) (v : Value)

@[simp] theorem update_value : (l.update index v).value = v := rfl

theorem enteredLevel_value (id : Nat) : (Walk.enteredLevel l index id v).value = v := by
  unfold Walk.enteredLevel
  split <;> rfl

theorem enteredLevel_pending (id : Nat) :
    (Walk.enteredLevel l index id v).pending = l.pending := by
  unfold Walk.enteredLevel
  split <;> rfl

theorem enteredLevel_branch (id : Nat) : (Walk.enteredLevel l index id v).branch = some id := by
  unfold Walk.enteredLevel
  split <;> rfl

end Level

namespace Walk

variable {p : Path} {c : Catalogue} {w w' : Walk} {index : Nat} {why : String}

/-! ## Numeric operations -/

/-- The operands of a numeric operation; without any it takes the flowing value. -/
def operandsOrCurrent (operands : List Operand) : List Operand :=
  if operands.isEmpty then [.current] else operands

theorem forgetNumeric_levels (w : Walk) (index : Nat) (name : String) :
    (w.forgetNumeric index name).levels =
      w.levels.map fun l => { l.update index (.integer .top) with pending := some name } :=
  List.map_map

theorem numericLevel_eq_ok {target : NumericTarget} {operands : List Operand} {l l' : Level} :
    w.numericLevel index target operands l = .ok l' ↔
      ∃ inputs iv, operands.mapM (w.operandValue index l.value) = .ok inputs ∧
        target.evaluate inputs l.value = .ok iv ∧ l' = l.update index (.integer iv) := by
  unfold numericLevel
  constructor
  · intro h
    obtain ⟨inputs, hinputs, h⟩ := bind_eq_ok.mp h
    obtain ⟨iv, hiv, h⟩ := bind_eq_ok.mp h
    exact ⟨inputs, iv, hinputs, mapError_eq_ok.mp hiv, (Except.ok.inj h).symm⟩
  · rintro ⟨inputs, iv, hinputs, hiv, rfl⟩
    exact bind_eq_ok.mpr ⟨inputs, hinputs, bind_eq_ok.mpr ⟨iv, mapError_eq_ok.mpr hiv, rfl⟩⟩

theorem numericLevel_branch {target : NumericTarget} {operands : List Operand} {l l' : Level}
    (h : w.numericLevel index target operands l = .ok l') : l'.branch = l.branch := by
  obtain ⟨_, _, _, _, rfl⟩ := numericLevel_eq_ok.mp h
  rfl

/-- A numeric operation of unknown effect forgets the value on all levels; a known one is applied to
each level, and settles what is pending where the upper bound becomes finite. -/
theorem applyNumeric_eq_ok {o : Operator} {operands : List Operand}
    (h : w.applyNumeric c index o operands = .ok (w', why)) :
    (∃ name, numericTarget c index o = .ok (.unknown name) ∧ w' = w.forgetNumeric index name) ∨
      ∃ target ls notes, numericTarget c index o = .ok target ∧ (∀ name, target ≠ .unknown name) ∧
        List.Forall₂ (fun l l' =>
          w.numericLevel index target (operandsOrCurrent operands) l = .ok l') w.levels ls ∧
        w' = { w with
          levels := ls.map (Level.settled fun l => l.value.hasFiniteHigh), notes := notes } := by
  unfold applyNumeric at h
  obtain ⟨target, htarget, h⟩ := bind_eq_ok.mp h
  split at h
  · next name =>
    obtain ⟨rfl, -⟩ := Prod.mk.inj (Except.ok.inj h)
    exact Or.inl ⟨name, htarget, rfl⟩
  · next hknown =>
    obtain ⟨ls, hls, h⟩ := bind_eq_ok.mp h
    obtain ⟨l, -, h⟩ := bind_eq_ok.mp h
    obtain ⟨rfl, -⟩ := Prod.mk.inj (Except.ok.inj h)
    obtain ⟨notes, hs⟩ := settle_eq { w with levels := ls } index "finite upper bound" fun l =>
      l.value.hasFiniteHigh
    exact Or.inr ⟨target, ls, notes, htarget, fun name hname => hknown name hname,
      forall₂_of_mapLevels_eq_ok hls, hs⟩

/-! ## String transforms -/

theorem forgetText_levels (w : Walk) (index : Nat) (name : String) :
    (w.forgetText index name).levels =
      w.levels.map fun l => { l.update index (.text .unconstrained) with
        guaranteeStep := none
        pending := some name } :=
  List.map_map

theorem textLevel_eq_ok {name : String} {effect : TextEffect} {pieces : List Piece}
    {l l' : Level} (h : textLevel index name effect pieces l = .ok l') :
    ∃ g, effect.evaluate name pieces l.value = .ok g ∧ l'.value = .text g ∧
      l'.pending = l.pending ∧ l'.branch = l.branch := by
  unfold textLevel at h
  obtain ⟨g, hg, h⟩ := bind_eq_ok.mp h
  obtain rfl := Except.ok.inj h
  refine ⟨g, mapError_eq_ok.mp hg, ?_⟩
  split
  · exact ⟨rfl, rfl, rfl⟩
  · exact ⟨rfl, rfl, rfl⟩

theorem textLevel_branch {name : String} {effect : TextEffect} {pieces : List Piece}
    {l l' : Level} (h : textLevel index name effect pieces l = .ok l') : l'.branch = l.branch := by
  obtain ⟨_, _, _, _, hbranch⟩ := textLevel_eq_ok h
  exact hbranch

/-- A transform of unknown effect forgets the value on all levels; a known one is applied to each
level, and a sanitizing one settles what is pending. -/
theorem applyText_eq_ok {name : String} {arguments : List Argument}
    (h : w.applyText c index name arguments = .ok (w', why)) :
    (c.get? name = none ∧ w' = w.forgetText index name) ∨
      ∃ effect pieces ls notes, c.get? name = some (.text effect) ∧
        arguments.mapM (w.pieceOf index) = .ok pieces ∧
        List.Forall₂ (fun l l' => textLevel index name effect pieces l = .ok l') w.levels ls ∧
        w' = redact { w with
          levels := ls.map (Level.settled fun _ => effect.isSanitizing), notes := notes }
          index effect := by
  unfold applyText at h
  split at h
  · next hnone =>
    obtain ⟨rfl, -⟩ := Prod.mk.inj (Except.ok.inj h)
    exact Or.inl ⟨hnone, rfl⟩
  · contradiction
  · next effect heffect =>
    obtain ⟨pieces, hpieces, h⟩ := bind_eq_ok.mp h
    obtain ⟨ls, hls, h⟩ := bind_eq_ok.mp h
    obtain ⟨rfl, -⟩ := Prod.mk.inj (Except.ok.inj h)
    refine Or.inr ⟨effect, pieces, ls, ?_⟩
    by_cases hs : effect.isSanitizing = true
    · obtain ⟨notes, he⟩ := settle_eq { w with levels := ls } index name fun _ => true
      refine ⟨notes, heffect, hpieces, forall₂_of_mapLevels_eq_ok hls, ?_⟩
      simp only [hs, if_true, he]
    · rw [Bool.not_eq_true] at hs
      refine ⟨w.notes, heffect, hpieces, forall₂_of_mapLevels_eq_ok hls, ?_⟩
      simp only [hs, Bool.false_eq_true, if_false, Level.map_settled_none]

/-! ## Values -/

/-- What an operation makes of the value of a level, unless it is a source. -/
inductive Renews (p : Path) (c : Catalogue) (index : Nat) (w : Walk) :
    Operation → Value → Value → Prop
  /-- A level beneath the branch that a guard enters. -/
  | beneath {id : Nat} {v : Value} : Renews p c index w (.guard id) v v
  | entered {id : Nat} {b : Branch} {v v' : Value} {why : String} :
      p.branches[id]? = some b → b.refine v = .ok (v', why) → Renews p c index w (.guard id) v v'
  | forgottenNumber {o : Operator} {operands : List Operand} {name : String} {v : Value} :
      numericTarget c index o = .ok (.unknown name) →
      Renews p c index w (.numeric o operands) v (.integer .top)
  | computed {o : Operator} {operands : List Operand} {target : NumericTarget}
      {inputs : List Value} {iv : Interval} {v : Value} :
      numericTarget c index o = .ok target →
      (operandsOrCurrent operands).mapM (w.operandValue index v) = .ok inputs →
      target.evaluate inputs v = .ok iv →
      Renews p c index w (.numeric o operands) v (.integer iv)
  | forgottenText {name : String} {arguments : List Argument} {v : Value} :
      c.get? name = none → Renews p c index w (.string name arguments) v (.text .unconstrained)
  | transformed {name : String} {arguments : List Argument} {effect : TextEffect}
      {pieces : List Piece} {g : TextGuarantee} {v : Value} :
      c.get? name = some (.text effect) → arguments.mapM (w.pieceOf index) = .ok pieces →
      effect.evaluate name pieces v = .ok g →
      Renews p c index w (.string name arguments) v (.text g)
  | sunk {k : Sink} {v : Value} : Renews p c index w (.sink k) v v

@[simp] theorem redact_results (w : Walk) (index : Nat) (effect : TextEffect) :
    (w.redact index effect).results = w.results := by
  unfold redact
  split <;> rfl

@[simp] theorem redact_trace (w : Walk) (index : Nat) (effect : TextEffect) :
    (w.redact index effect).trace = w.trace := by
  unfold redact
  split <;> rfl

@[simp] theorem redact_levels (w : Walk) (index : Nat) (effect : TextEffect) :
    (w.redact index effect).levels = w.levels := by
  unfold redact
  split <;> rfl

/-- Only recording a step adds to the results and to the trace. -/
theorem apply_recorded {op : Operation} (h : w.apply p c index op = .ok (w', why)) :
    w'.results = w.results ∧ w'.trace = w.trace := by
  cases op with
  | source s =>
    obtain ⟨rfl, -⟩ := Prod.mk.inj (Except.ok.inj h)
    exact ⟨rfl, rfl⟩
  | numeric o operands =>
    rcases applyNumeric_eq_ok h with ⟨name, _, rfl⟩ | ⟨_, _, _, _, _, _, rfl⟩
    · exact ⟨rfl, rfl⟩
    · exact ⟨rfl, rfl⟩
  | string name arguments =>
    rcases applyText_eq_ok h with ⟨_, rfl⟩ | ⟨_, _, _, _, _, _, _, rfl⟩
    · exact ⟨rfl, rfl⟩
    · exact ⟨redact_results _ _ _, redact_trace _ _ _⟩
  | guard id =>
    obtain ⟨_, _, _, _, _, _, _, _, rfl⟩ := enterBranch_eq_ok h
    exact ⟨rfl, rfl⟩
  | sink k =>
    obtain ⟨rfl, -⟩ := Prod.mk.inj (Except.ok.inj h)
    exact ⟨rfl, rfl⟩

/-- Every level after an operation stems from one before, unless the operation is a source. -/
theorem apply_values {op : Operation} (h : w.apply p c index op = .ok (w', why)) {l' : Level}
    (hl' : l' ∈ w'.levels) :
    (∃ s, op = .source s ∧ l'.value = sourceValue s.kind) ∨
      ∃ l ∈ w.levels, Renews p c index w op l.value l'.value := by
  cases op with
  | source s =>
    obtain ⟨rfl, -⟩ := Prod.mk.inj (Except.ok.inj h)
    obtain rfl := List.mem_singleton.mp hl'
    exact Or.inl ⟨s, rfl, rfl⟩
  | numeric o operands =>
    rcases applyNumeric_eq_ok h with ⟨name, ho, rfl⟩ | ⟨target, ls, _, ho, _, hls, rfl⟩
    · rw [forgetNumeric_levels] at hl'
      obtain ⟨l, hl, rfl⟩ := List.mem_map.mp hl'
      exact Or.inr ⟨l, hl, .forgottenNumber ho⟩
    · obtain ⟨l₁, hl₁, rfl⟩ := List.mem_map.mp hl'
      obtain ⟨l, hl, hstep⟩ := exists_of_forall₂_of_mem hls hl₁
      obtain ⟨inputs, iv, hinputs, hiv, rfl⟩ := numericLevel_eq_ok.mp hstep
      rw [Level.settled_value, Level.update_value]
      exact Or.inr ⟨l, hl, .computed ho hinputs hiv⟩
  | string name arguments =>
    rcases applyText_eq_ok h with
      ⟨hnone, rfl⟩ | ⟨effect, pieces, ls, _, heffect, hpieces, hls, rfl⟩
    · rw [forgetText_levels] at hl'
      obtain ⟨l, hl, rfl⟩ := List.mem_map.mp hl'
      exact Or.inr ⟨l, hl, .forgottenText hnone⟩
    · rw [redact_levels] at hl'
      obtain ⟨l₁, hl₁, rfl⟩ := List.mem_map.mp hl'
      obtain ⟨l, hl, hstep⟩ := exists_of_forall₂_of_mem hls hl₁
      obtain ⟨g, hg, hvalue, -, -⟩ := textLevel_eq_ok hstep
      rw [Level.settled_value, hvalue]
      exact Or.inr ⟨l, hl, .transformed heffect hpieces hg⟩
  | guard id =>
    obtain ⟨b, l, ls, v, _, hb, hls, hv, rfl⟩ := enterBranch_eq_ok h
    obtain ⟨l₁, hl₁, rfl⟩ := List.mem_map.mp hl'
    rw [Level.settled_value]
    rcases List.mem_cons.mp hl₁ with rfl | hl₁
    · rw [Level.enteredLevel_value]
      exact Or.inr ⟨l, hls ▸ List.mem_cons_self, .entered hb hv⟩
    · exact Or.inr ⟨l₁, hl₁, .beneath⟩
  | sink k =>
    obtain ⟨rfl, -⟩ := Prod.mk.inj (Except.ok.inj h)
    exact Or.inr ⟨l', hl', .sunk⟩

/-! ## Steps -/

/-- A step leaves branches, applies its operation and keeps the innermost value. -/
theorem step_eq_ok {s : Step} (h : w.step p c index s = .ok w') :
    ∃ w₁ why l ls, apply p c index s.op { w with levels := leave p s.branch w.levels } =
        .ok (w₁, why) ∧ w₁.levels = l :: ls ∧
      w' = { w₁ with
        trace := w₁.trace ++ [⟨index, s.op.text, l.value, why⟩]
        results := w₁.results ++ [l.value] } := by
  unfold step at h
  obtain ⟨⟨w₁, why⟩, happly, h⟩ := bind_eq_ok.mp h
  unfold record at h
  obtain ⟨l, hl, h⟩ := bind_eq_ok.mp h
  obtain ⟨ls, hls⟩ := top_eq_ok.mp hl
  exact ⟨w₁, why, l, ls, happly, hls, (Except.ok.inj h).symm⟩

/-- The result of a step is the value of the innermost level after it. -/
theorem step_results {s : Step} (h : w.step p c index s = .ok w') :
    ∃ l ∈ w'.levels, w'.results = w.results ++ [l.value] := by
  obtain ⟨w₁, _, l, ls, happly, hls, rfl⟩ := step_eq_ok h
  refine ⟨l, ?_, ?_⟩
  · show l ∈ w₁.levels
    rw [hls]
    exact List.mem_cons_self
  · show w₁.results ++ [l.value] = w.results ++ [l.value]
    rw [(apply_recorded happly).1]

theorem Renews.of_leave {branch : Option Nat} {op : Operation} {v v' : Value}
    (h : Renews p c index { w with levels := leave p branch w.levels } op v v') :
    Renews p c index w op v v' := by
  have hop : operandValue { w with levels := leave p branch w.levels } = w.operandValue := by
    funext _ _ o
    cases o <;> rfl
  have hpiece : pieceOf { w with levels := leave p branch w.levels } = w.pieceOf := by
    funext _ a
    cases a <;> rfl
  cases h with
  | beneath => exact .beneath
  | entered hb hv => exact .entered hb hv
  | forgottenNumber ho => exact .forgottenNumber ho
  | computed ho hinputs hiv => exact .computed ho (hop ▸ hinputs) hiv
  | forgottenText hnone => exact .forgottenText hnone
  | transformed heffect hpieces hg => exact .transformed heffect (hpiece ▸ hpieces) hg
  | sunk => exact .sunk

theorem step_values {s : Step} (h : w.step p c index s = .ok w') {l' : Level}
    (hl' : l' ∈ w'.levels) :
    (∃ src, s.op = .source src ∧ l'.value = sourceValue src.kind) ∨
      ∃ l ∈ w.levels, Renews p c index w s.op l.value l'.value := by
  obtain ⟨w₁, _, _, _, happly, _, rfl⟩ := step_eq_ok h
  rcases apply_values happly hl' with hsource | ⟨l, hl, hrenews⟩
  · exact Or.inl hsource
  · exact Or.inr ⟨l, mem_of_mem_leave hl, hrenews.of_leave⟩

/-! ## Runs -/

/-- The walk after some first steps of a path. -/
inductive Reached (p : Path) (c : Catalogue) : List Step → Walk → Prop
  | start : Reached p c [] {}
  | step {ss : List Step} {s : Step} {w w' : Walk} : Reached p c ss w →
      w.step p c ss.length s = .ok w' → Reached p c (ss ++ [s]) w'

/-- A walk after some steps took the last of them after the others. -/
theorem Reached.of_concat {ss : List Step} {s : Step} (h : Reached p c (ss ++ [s]) w') :
    ∃ w, Reached p c ss w ∧ w.step p c ss.length s = .ok w' := by
  generalize hts : ss ++ [s] = ts at h
  cases h with
  | start => simp at hts
  | step hw hstep =>
    obtain ⟨rfl, hs⟩ := List.append_inj' hts rfl
    obtain rfl := List.singleton_inj.mp hs
    exact ⟨_, hw, hstep⟩

/-- Every step of a walk was taken after those before it. -/
theorem Reached.of_append {before after : List Step} {s : Step}
    (h : Reached p c (before ++ s :: after) w') :
    ∃ w w₁, Reached p c before w ∧ w.step p c before.length s = .ok w₁ := by
  induction after using List.reverseRecOn generalizing w' with
  | nil =>
    obtain ⟨w, hw, hstep⟩ := h.of_concat
    exact ⟨w, w', hw, hstep⟩
  | append_singleton after t ih =>
    rw [← List.cons_append, ← List.append_assoc] at h
    obtain ⟨w₀, hw₀, -⟩ := h.of_concat
    exact ih hw₀

theorem steps_append (ss ts : List Step) :
    steps p c index (ss ++ ts) w =
      (steps p c index ss w >>= fun w => steps p c (index + ss.length) ts w) := by
  induction ss generalizing index w with
  | nil => rfl
  | cons s ss ih =>
    show (w.step p c index s >>= _) = ((w.step p c index s >>= _) >>= _)
    cases w.step p c index s with
    | error e => rfl
    | ok w₁ =>
      show steps p c (index + 1) (ss ++ ts) w₁ = _
      rw [ih, List.length_cons, Nat.add_assoc, Nat.add_comm 1]
      rfl

theorem reached_of_steps {ss : List Step} (h : steps p c 0 ss {} = .ok w) : Reached p c ss w := by
  induction ss using List.reverseRecOn generalizing w with
  | nil =>
    cases h
    exact .start
  | append_singleton ss s ih =>
    rw [steps_append] at h
    obtain ⟨w₁, hw₁, h⟩ := bind_eq_ok.mp h
    obtain ⟨w₂, hw₂, h⟩ := bind_eq_ok.mp h
    cases h
    rw [Nat.zero_add] at hw₂
    exact .step (ih hw₁) hw₂

end Walk

end FlowSafety
