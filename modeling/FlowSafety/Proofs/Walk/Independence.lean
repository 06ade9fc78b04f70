import FlowSafety.Proofs.Walk.Stack
import FlowSafety.Proofs.Walk.Summary

/-!
# Branches that were left

What a path tested in a branch does not matter once the branch is left. Two walks along paths that
differ in the test of one branch know the same on all levels outside of it, however the levels
inside differ, as long as no step refers to a result from inside.

* `Path.DifferAt` — two paths that differ in the condition and the outcome of one branch
* `Walk.AlikeOutside` — two walks that know the same outside of a branch
* `Walk.AlikeOutside.step` — a step keeps them alike
* `Walk.Reached.alikeOutside` — so they are alike after any steps
-/

namespace FlowSafety

/-! ## Paths -/

/-- The paths differ at most in the condition and the outcome of one branch. -/
structure Path.DifferAt (p : Path) (b : Nat) (q : Path) : Prop where
  version : p.version = q.version
  steps : p.steps = q.steps
  parents : ∀ i : Nat, p.branches[i]?.map (·.parent) = q.branches[i]?.map (·.parent)
  others : ∀ i : Nat, i ≠ b → p.branches[i]? = q.branches[i]?

/-- Neither the branch nor one around it is the given one. -/
def Path.Outside (p : Path) (b : Nat) (branch : Option Nat) : Prop :=
  p.encloses (some b) branch = false

/-- The steps that an operation refers to. -/
def Operation.targets : Operation → List Nat
  | .numeric _ operands => operands.filterMap Path.operandTarget
  | .string _ arguments => arguments.filterMap Path.argumentTarget
  | _ => []

/-! ## Levels -/

/-- Outside of the branch the levels are the same. -/
structure Level.AlikeOutside (p : Path) (b : Nat) (l l' : Level) : Prop where
  branch : l.branch = l'.branch
  eq : p.Outside b l.branch → l = l'

namespace Level.AlikeOutside

variable {p : Path} {b : Nat} {l l' k k' : Level}

/-- What an operation makes of levels that are alike is alike. -/
theorem image {f : Level → Except Fault Level} (h : l.AlikeOutside p b l') (hk : f l = .ok k)
    (hk' : f l' = .ok k') (hbranch : ∀ {l k}, f l = .ok k → k.branch = l.branch) :
    k.AlikeOutside p b k' := by
  constructor
  · rw [hbranch hk, hbranch hk', h.branch]
  · intro hout
    rw [hbranch hk] at hout
    obtain rfl := h.eq hout
    exact Except.ok.inj (hk.symm.trans hk')

theorem settled {accepts accepts' : Level → Bool} (h : l.AlikeOutside p b l')
    (haccepts : p.Outside b l.branch → accepts l = accepts' l) :
    (l.settled accepts).AlikeOutside p b (l'.settled accepts') := by
  constructor
  · rw [Level.settled_branch, Level.settled_branch, h.branch]
  · intro hout
    rw [Level.settled_branch] at hout
    obtain rfl := h.eq hout
    unfold Level.settled
    rw [haccepts hout]

end Level.AlikeOutside

theorem forall₂_alikeOutside_map {p : Path} {b : Nat} {f f' : Level → Level} {ls ls' : List Level}
    (h : List.Forall₂ (Level.AlikeOutside p b) ls ls')
    (hf : ∀ {l l'}, l.AlikeOutside p b l' → (f l).AlikeOutside p b (f' l')) :
    List.Forall₂ (Level.AlikeOutside p b) (ls.map f) (ls'.map f') :=
  List.forall₂_map_left_iff.mpr (List.forall₂_map_right_iff.mpr (h.imp fun _ _ hl => hf hl))

/-- Levels that are all changed in the same way stay alike. -/
theorem forall₂_alikeOutside_map_of_branch {p : Path} {b : Nat} {f : Level → Level}
    {ls ls' : List Level} (h : List.Forall₂ (Level.AlikeOutside p b) ls ls')
    (hbranch : ∀ l, (f l).branch = l.branch) :
    List.Forall₂ (Level.AlikeOutside p b) (ls.map f) (ls'.map f) := by
  refine forall₂_alikeOutside_map h ?_
  intro l l' hl
  constructor
  · rw [hbranch, hbranch, hl.branch]
  · intro hout
    rw [hbranch] at hout
    rw [hl.eq hout]

namespace Walk

variable {p q : Path} {c : Catalogue} {b : Nat} {w w' w₁ w₁' : Walk} {index : Nat}
  {why why' : String} {ss : List Step} {s : Step}

/-! ## Operands -/

theorem resultOf_congr {target : Nat} (h : w.results[target]? = w'.results[target]?) :
    w.resultOf index target = w'.resultOf index target := by
  unfold resultOf
  rw [h]

theorem mapM_operandValue_congr {operands : List Operand} {v : Value}
    (h : ∀ target ∈ operands.filterMap Path.operandTarget,
      w.results[target]? = w'.results[target]?) :
    operands.mapM (w.operandValue index v) = operands.mapM (w'.operandValue index v) := by
  refine mapM_congr ?_
  intro operand hoperand
  cases operand with
  | step target => exact resultOf_congr (h target (List.mem_filterMap.mpr ⟨_, hoperand, rfl⟩))
  | _ => rfl

theorem mapM_pieceOf_congr {arguments : List Argument}
    (h : ∀ target ∈ arguments.filterMap Path.argumentTarget,
      w.results[target]? = w'.results[target]?) :
    arguments.mapM (w.pieceOf index) = arguments.mapM (w'.pieceOf index) := by
  refine mapM_congr ?_
  intro argument hargument
  cases argument with
  | step target =>
    have htarget : w.resultOf index target = w'.resultOf index target :=
      resultOf_congr (h target (List.mem_filterMap.mpr ⟨_, hargument, rfl⟩))
    show (w.resultOf index target).map Piece.value = (w'.resultOf index target).map Piece.value
    rw [htarget]
  | _ => rfl

/-- Taking the flowing value for want of operands refers to no step. -/
theorem filterMap_operandsOrCurrent (operands : List Operand) :
    (operandsOrCurrent operands).filterMap Path.operandTarget =
      operands.filterMap Path.operandTarget := by
  cases operands with
  | nil => rfl
  | cons _ _ => rfl

theorem numericLevel_congr {operands : List Operand}
    (h : ∀ target ∈ operands.filterMap Path.operandTarget,
      w.results[target]? = w'.results[target]?) (target : NumericTarget) (l : Level) :
    w.numericLevel index target (operandsOrCurrent operands) l =
      w'.numericLevel index target (operandsOrCurrent operands) l := by
  rw [← filterMap_operandsOrCurrent] at h
  unfold numericLevel
  rw [mapM_operandValue_congr h]

/-! ## Walks -/

/-- The walks know the same outside of the branch: on the levels, in the results of the steps, and
about the source and the sink. -/
structure AlikeOutside (p : Path) (b : Nat) (ss : List Step) (w w' : Walk) : Prop where
  levels : List.Forall₂ (Level.AlikeOutside p b) w.levels w'.levels
  results : ∀ i : Nat, (∀ s ∈ ss[i]?, p.Outside b s.branch) → w.results[i]? = w'.results[i]?
  sourceIsSensitive : w.sourceIsSensitive = w'.sourceIsSensitive
  isSensitive : w.isSensitive = w'.isSensitive
  redactedAt : w.redactedAt = w'.redactedAt
  sink : w.sink = w'.sink

namespace AlikeOutside

/-! ## Leaving branches -/

theorem leave_levels {ls ls' : List Level} (h : List.Forall₂ (Level.AlikeOutside p b) ls ls')
    (hpq : p.encloses = q.encloses) (branch : Option Nat) :
    List.Forall₂ (Level.AlikeOutside p b) (leave p branch ls) (leave q branch ls') := by
  induction h with
  | nil => exact .nil
  | @cons inner inner' ls ls' hinner hls ih =>
    cases hls with
    | nil => exact .cons hinner .nil
    | @cons outer outer' ls ls' houter hls =>
      unfold Walk.leave
      rw [hpq, hinner.branch]
      split
      · exact .cons hinner (.cons houter hls)
      · exact ih

/-! ## Operations -/

/-- The innermost levels are the same where the step is outside. -/
theorem top_eq {l l' : Level} {ls ls' : List Level} {branch : Option Nat}
    (h : List.Forall₂ (Level.AlikeOutside p b) (l :: ls) (l' :: ls'))
    (haround : p.encloses l.branch branch = true) (hout : p.Outside b branch) : l = l' := by
  cases h with
  | cons hl _ => exact hl.eq (Path.not_encloses_of_encloses hout haround)

theorem enterBranch {id : Nat} (h : AlikeOutside p b ss w w') (hpq : p.DifferAt b q)
    (haround : ∀ l ∈ w.levels, p.encloses l.branch (some id) = true)
    (hw : w.enterBranch p index id = .ok (w₁, why))
    (hw' : w'.enterBranch q index id = .ok (w₁', why')) : AlikeOutside p b ss w₁ w₁' := by
  obtain ⟨t, l, ls, v, _, ht, hls, hv, rfl⟩ := enterBranch_eq_ok hw
  obtain ⟨t', l', ls', v', _, ht', hls', hv', rfl⟩ := enterBranch_eq_ok hw'
  have hlevels := h.levels
  rw [hls, hls'] at hlevels
  -- outside, both enter the same branch from the same level
  have hsame : p.Outside b (some id) → t = t' ∧ l = l' ∧ v = v' := by
    intro hout
    have hid : id ≠ b := by
      rintro rfl
      rw [Path.Outside, Path.encloses_refl] at hout
      contradiction
    have htt : t = t' := by
      rw [hpq.others id hid, ht'] at ht
      exact (Option.some.inj ht).symm
    have hll : l = l' := top_eq hlevels (haround l (hls ▸ List.mem_cons_self)) hout
    subst htt hll
    exact ⟨rfl, rfl, (Prod.mk.inj (Except.ok.inj (hv.symm.trans hv'))).1⟩
  have hentered : (enteredLevel l index id v).AlikeOutside p b (enteredLevel l' index id v') := by
    constructor
    · rw [Level.enteredLevel_branch, Level.enteredLevel_branch]
    · intro hout
      rw [Level.enteredLevel_branch] at hout
      obtain ⟨-, rfl, rfl⟩ := hsame hout
      rfl
  refine { h with levels := forall₂_alikeOutside_map (.cons hentered h.levels) ?_ }
  intro k k' hk
  refine hk.settled fun hout => ?_
  -- a level of the entered branch is outside only if that branch is
  by_cases hid : k.branch = some id
  · rw [hid] at hout
    obtain ⟨rfl, rfl, rfl⟩ := hsame hout
    rfl
  · simp only [hid, decide_false, Bool.and_false]

theorem applyNumeric {o : Operator} {operands : List Operand} (h : AlikeOutside p b ss w w')
    (htargets : ∀ target ∈ operands.filterMap Path.operandTarget,
      w.results[target]? = w'.results[target]?)
    (hw : w.applyNumeric c index o operands = .ok (w₁, why))
    (hw' : w'.applyNumeric c index o operands = .ok (w₁', why')) :
    AlikeOutside p b ss w₁ w₁' := by
  rcases applyNumeric_eq_ok hw with ⟨name, ho, rfl⟩ | ⟨target, ls, _, ho, hknown, hls, rfl⟩
  · rcases applyNumeric_eq_ok hw' with ⟨name', ho', rfl⟩ | ⟨target', _, _, ho', hknown', _, rfl⟩
    · obtain rfl := NumericTarget.unknown.inj (Except.ok.inj (ho.symm.trans ho'))
      refine { h with levels := ?_ }
      rw [forgetNumeric_levels, forgetNumeric_levels]
      exact forall₂_alikeOutside_map_of_branch h.levels fun _ => rfl
    · exact absurd (Except.ok.inj (ho'.symm.trans ho)) (hknown' name)
  · rcases applyNumeric_eq_ok hw' with ⟨name', ho', rfl⟩ | ⟨target', ls', _, ho', _, hls', rfl⟩
    · exact absurd (Except.ok.inj (ho.symm.trans ho')) (hknown name')
    · obtain rfl := Except.ok.inj (ho.symm.trans ho')
      have hcomputed : List.Forall₂ (Level.AlikeOutside p b) ls ls' := by
        refine forall₂_image h.levels hls hls' ?_
        intro l l' k k' hl hk hk'
        rw [numericLevel_congr htargets] at hk
        exact hl.image hk hk' numericLevel_branch
      exact { h with
        levels := forall₂_alikeOutside_map_of_branch hcomputed (Level.settled_branch _) }

theorem redact {effect : TextEffect} (h : AlikeOutside p b ss w w') :
    AlikeOutside p b ss (w.redact index effect) (w'.redact index effect) := by
  unfold Walk.redact
  rw [h.isSensitive]
  split
  · exact { h with isSensitive := rfl, redactedAt := rfl }
  · exact h

theorem applyText {name : String} {arguments : List Argument} (h : AlikeOutside p b ss w w')
    (htargets : ∀ target ∈ arguments.filterMap Path.argumentTarget,
      w.results[target]? = w'.results[target]?)
    (hw : w.applyText c index name arguments = .ok (w₁, why))
    (hw' : w'.applyText c index name arguments = .ok (w₁', why')) :
    AlikeOutside p b ss w₁ w₁' := by
  rcases applyText_eq_ok hw with ⟨hnone, rfl⟩ | ⟨effect, pieces, ls, _, heffect, hpieces, hls, rfl⟩
  · rcases applyText_eq_ok hw' with ⟨_, rfl⟩ | ⟨_, _, _, _, heffect', _, _, rfl⟩
    · refine { h with levels := ?_ }
      rw [forgetText_levels, forgetText_levels]
      exact forall₂_alikeOutside_map_of_branch h.levels fun _ => rfl
    · rw [hnone] at heffect'
      contradiction
  · rcases applyText_eq_ok hw' with
      ⟨hnone', rfl⟩ | ⟨effect', pieces', ls', _, heffect', hpieces', hls', rfl⟩
    · rw [hnone'] at heffect
      contradiction
    · rw [heffect] at heffect'
      cases heffect'
      rw [mapM_pieceOf_congr htargets] at hpieces
      obtain rfl := Except.ok.inj (hpieces.symm.trans hpieces')
      have htransformed : List.Forall₂ (Level.AlikeOutside p b) ls ls' := by
        refine forall₂_image h.levels hls hls' ?_
        intro l l' k k' hl hk hk'
        exact hl.image hk hk' textLevel_branch
      exact AlikeOutside.redact { h with
        levels := forall₂_alikeOutside_map_of_branch htransformed (Level.settled_branch _) }

/-- An operation that refers to nothing inside of the branch keeps walks alike. -/
theorem apply {op : Operation} {branch : Option Nat} (h : AlikeOutside p b ss w w')
    (hpq : p.DifferAt b q) (hguard : ∀ id, op = .guard id → branch = some id)
    (hnested : Nested p branch (w₁.levels.map (·.branch)))
    (htargets : ∀ target ∈ op.targets, w.results[target]? = w'.results[target]?)
    (hw : w.apply p c index op = .ok (w₁, why)) (hw' : w'.apply q c index op = .ok (w₁', why')) :
    AlikeOutside p b ss w₁ w₁' := by
  cases op with
  | source s =>
    obtain ⟨rfl, -⟩ := Prod.mk.inj (Except.ok.inj hw)
    obtain ⟨rfl, -⟩ := Prod.mk.inj (Except.ok.inj hw')
    exact { h with
      levels := .cons ⟨rfl, fun _ => rfl⟩ .nil
      sourceIsSensitive := rfl
      isSensitive := rfl }
  | numeric o operands => exact h.applyNumeric htargets hw hw'
  | string name arguments => exact h.applyText htargets hw hw'
  | guard id =>
    obtain rfl := hguard id rfl
    refine h.enterBranch hpq ?_ hw hw'
    intro l hl
    refine hnested.around l.branch ?_
    rw [apply_branches hw]
    exact List.mem_cons_of_mem _ (List.mem_map_of_mem hl)
  | sink k =>
    obtain ⟨rfl, -⟩ := Prod.mk.inj (Except.ok.inj hw)
    obtain ⟨rfl, -⟩ := Prod.mk.inj (Except.ok.inj hw')
    exact { h with sink := rfl }

/-! ## Steps -/

/-- A step that refers to nothing inside of the branch keeps walks alike, and has the same result in
both where it is outside. -/
theorem step (h : AlikeOutside p b ss w w') (hpq : p.DifferAt b q)
    (hguard : ∀ id, s.op = .guard id → s.branch = some id)
    (htargets : ∀ target ∈ s.op.targets, ∀ t ∈ ss[target]?, p.Outside b t.branch)
    (hlength : w.results.length = ss.length) (hlength' : w'.results.length = ss.length)
    (hw : w.step p c index s = .ok w₁) (hnested : Nested p s.branch (w₁.levels.map (·.branch)))
    (hw' : w'.step q c index s = .ok w₁') : AlikeOutside p b (ss ++ [s]) w₁ w₁' := by
  obtain ⟨w₂, why, l, ls, happly, hls, rfl⟩ := step_eq_ok hw
  obtain ⟨w₂', why', l', ls', happly', hls', rfl⟩ := step_eq_ok hw'
  have hleft : AlikeOutside p b ss { w with levels := leave p s.branch w.levels }
      { w' with levels := leave q s.branch w'.levels } :=
    { h with levels := leave_levels h.levels (Path.encloses_congr hpq.parents) s.branch }
  have hafter : AlikeOutside p b ss w₂ w₂' :=
    hleft.apply hpq hguard hnested (fun target ht => h.results target (htargets target ht))
      happly happly'
  have htop : p.Outside b s.branch → l = l' := by
    have hlevels := hafter.levels
    rw [hls, hls'] at hlevels
    refine top_eq hlevels (hnested.around l.branch ?_)
    show l.branch ∈ w₂.levels.map (·.branch)
    rw [hls]
    exact List.mem_cons_self
  refine { hafter with results := ?_ }
  intro i hi
  show (w₂.results ++ [l.value])[i]? = (w₂'.results ++ [l'.value])[i]?
  rw [(apply_recorded happly).1, (apply_recorded happly').1]
  show (w.results ++ [l.value])[i]? = (w'.results ++ [l'.value])[i]?
  rcases Nat.lt_or_ge i ss.length with hlt | hge
  · rw [List.getElem?_append_left hlt] at hi
    rw [List.getElem?_append_left (hlength ▸ hlt), List.getElem?_append_left (hlength' ▸ hlt)]
    exact h.results i hi
  · rw [List.getElem?_append_right hge] at hi
    rw [List.getElem?_append_right (hlength ▸ hge), List.getElem?_append_right (hlength' ▸ hge),
      hlength, hlength']
    cases hpast : i - ss.length with
    | zero =>
      rw [hpast] at hi
      rw [htop (hi s rfl)]
    | succ _ => rfl

end AlikeOutside

/-- Walks along two paths that differ at a branch are alike outside of it after the same steps. -/
theorem Reached.alikeOutside (hp : p.validate = .ok ()) (hpq : p.DifferAt b q)
    (htargets : ∀ s ∈ p.steps, ∀ target ∈ s.op.targets, ∀ t ∈ p.steps[target]?,
      p.Outside b t.branch)
    (hw : Reached p c ss w) (hw' : Reached q c ss w') (hss : ss <+: p.steps) :
    AlikeOutside p b ss w w' := by
  induction hw generalizing w' with
  | start =>
    generalize hnil : ([] : List Step) = ts at hw'
    cases hw' with
    | start => exact ⟨.nil, fun _ _ => rfl, rfl, rfl, rfl, rfl⟩
    | step _ _ => simp at hnil
  | @step ss s w w₁ hw hstep ih =>
    obtain ⟨w₀', hw₀', hstep'⟩ := hw'.of_concat
    have hbefore : ss <+: p.steps := (List.prefix_append _ _).trans hss
    have hs : p.steps[ss.length]? = some s := getElem?_length_of_concat hss
    refine (ih hw₀' hbefore).step hpq (fun id hop => Path.branch_of_validate hp hs hop) ?_
      hw.length_results hw₀'.length_results hstep ((Reached.step hw hstep).nested hp hss) hstep'
    intro target htarget t ht
    obtain ⟨rest, hrest⟩ := hbefore
    obtain ⟨hlt, -⟩ := List.getElem?_eq_some_iff.mp ht
    refine htargets s (List.mem_of_getElem? hs) target htarget t ?_
    rw [← hrest, List.getElem?_append_left hlt]
    exact ht

end Walk

/-! ## Verdicts -/

/-- A branch that a path has left has no influence on what is known at its end, nor on the verdict:
two paths that differ in the condition and the outcome of a branch have the same there, if no
operation refers to a step inside of that branch. -/
theorem summary_independent_of_left_branch {p q : Path} {b : Nat} {c : Classifier} {s s' : Summary}
    (hpq : p.DifferAt b q) (hleft : ∀ t ∈ p.steps.getLast?, p.Outside b t.branch)
    (htargets : ∀ t ∈ p.steps, ∀ target ∈ t.op.targets, ∀ u ∈ p.steps[target]?,
      p.Outside b u.branch)
    (hs : c.summarize p = .ok s) (hs' : c.summarize q = .ok s') :
    s.value = s'.value ∧ s.pending = s'.pending ∧ s.boundingStep = s'.boundingStep ∧
      s.guaranteeStep = s'.guaranteeStep ∧ s.isSensitive = s'.isSensitive ∧
      s.redactedAt = s'.redactedAt ∧ (c.classify p).outcome = (c.classify q).outcome := by
  obtain ⟨hp, w, hw, hfinish⟩ := Path.summarize_eq_ok hs
  obtain ⟨-, w', hw', hfinish'⟩ := Path.summarize_eq_ok hs'
  rw [← hpq.steps] at hw'
  have halike := hw.alikeOutside hp hpq htargets hw' (List.prefix_refl _)
  obtain ⟨l, ls, hls, rfl⟩ := Walk.finish_eq_ok hfinish
  obtain ⟨l', ls', hls', rfl⟩ := Walk.finish_eq_ok hfinish'
  have htop : l = l' := by
    obtain ⟨t, hlast⟩ : ∃ t, p.steps.getLast? = some t := by
      obtain ⟨src, branch, rest, hsteps, -⟩ := Path.source_of_validate hp
      rw [hsteps]
      exact ⟨_, List.getLast?_eq_some_getLast (List.cons_ne_nil _ _)⟩
    obtain ⟨ts, hts⟩ := List.getLast?_eq_some_iff.mp hlast
    rw [hts] at hw
    have hnested := hw.nested hp (hts ▸ List.prefix_refl _)
    have hlevels := halike.levels
    rw [hls, hls'] at hlevels
    rw [hls] at hnested
    exact Walk.AlikeOutside.top_eq hlevels (hnested.around l.branch List.mem_cons_self)
      (hleft t hlast)
  subst htop
  refine ⟨rfl, rfl, rfl, rfl, halike.isSensitive, halike.redactedAt, ?_⟩
  rw [Classifier.classify_outcome hs, Classifier.classify_outcome hs']
  exact Classifier.outcomeOf_congr rfl rfl halike.sink halike.sourceIsSensitive halike.isSensitive

/-- A count that is compared with a limit, raised on that branch, and capped as it was
after it. -/
def comparedCount (comparison : Comparison) (outcome : GuardOutcome) : Path :=
  { version := pathVersion
    branches := [{ parent := none, condition := .compare comparison 10, outcome := outcome }]
    steps :=
      [⟨.source (.ofInteger "count" .i32), none⟩, ⟨.guard 0, some 0⟩,
        ⟨.numeric .add [.const 1], some 0⟩, ⟨.numeric .min [.step 0, .const 50], none⟩,
        ⟨.sink .loopBound, none⟩] }

theorem summary_independent_comparedCount :
    ∃ s s', (Classifier.ofEntries 20 []).summarize (comparedCount .lt .passed) = .ok s ∧
      (Classifier.ofEntries 20 []).summarize (comparedCount .eq .failed) = .ok s' ∧
      s.trace[1]?.map (·.value) = some (.integer (.range (-2147483648) 9)) ∧
      s'.trace[1]?.map (·.value) = some (.integer (.range (-2147483648) 2147483647)) ∧
      s.value = s'.value ∧ s.boundingStep = s'.boundingStep ∧
      ((Classifier.ofEntries 20 []).classify (comparedCount .lt .passed)).outcome =
        ((Classifier.ofEntries 20 []).classify (comparedCount .eq .failed)).outcome := by
  have hdiffer : (comparedCount .lt .passed).DifferAt 0 (comparedCount .eq .failed) := by
    refine ⟨rfl, rfl, ?_, ?_⟩
    · intro i
      cases i <;> rfl
    · intro i hi
      cases i with
      | zero => contradiction
      | succ i => rfl
  have hleft : ∀ t ∈ (comparedCount .lt .passed).steps.getLast?,
      (comparedCount .lt .passed).Outside 0 t.branch := by
    intro t ht
    obtain rfl := Option.some.inj ht
    rfl
  have htargets : ∀ t ∈ (comparedCount .lt .passed).steps, ∀ target ∈ t.op.targets,
      ∀ u ∈ (comparedCount .lt .passed).steps[target]?,
        (comparedCount .lt .passed).Outside 0 u.branch := by
    intro t ht target htarget u hu
    have hall : (comparedCount .lt .passed).steps.flatMap (·.op.targets) = [0] := rfl
    obtain rfl := List.mem_singleton.mp (hall ▸ List.mem_flatMap.mpr ⟨t, ht, htarget⟩)
    obtain rfl := Option.some.inj hu
    rfl
  have hentered :
      ((Classifier.ofEntries 20 []).summarize (comparedCount .lt .passed)).toOption.map
        (·.trace[1]?.map (·.value)) = some (some (.integer (.range (-2147483648) 9))) := by
    decide +kernel
  have hentered' :
      ((Classifier.ofEntries 20 []).summarize (comparedCount .eq .failed)).toOption.map
        (·.trace[1]?.map (·.value)) =
          some (some (.integer (.range (-2147483648) 2147483647))) := by
    decide +kernel
  obtain ⟨s, hs, hvalue⟩ := exists_ok_of_map_toOption hentered
  obtain ⟨s', hs', hvalue'⟩ := exists_ok_of_map_toOption hentered'
  obtain ⟨hfinal, -, hbounding, -, -, -, houtcome⟩ :=
    summary_independent_of_left_branch hdiffer hleft htargets hs hs'
  exact ⟨s, s', hs, hs', hvalue, hvalue', hfinal, hbounding, houtcome⟩

end FlowSafety
