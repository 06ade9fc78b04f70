import FlowSafety.Path.Validation
import FlowSafety.Proofs.Results

/-!
# What validation says

A valid path passes the checks of each of its steps.

* `validateOperation_of_validate` — the operation of every step fits its place
* `source_of_validate` — a source is at the start and nowhere else
* `branch_of_validate` — a guard lies in the branch that it enters
* `target_lt_of_operands`, `target_lt_of_arguments` — references go back
* `parent_lt_of_validate` — branches come after those around them

And a path that passes these checks is valid.

* `validateStep_eq_ok` — what makes a step valid, which a longer branch table leaves as it is
* `validate_of_steps` — what makes a path valid
-/

namespace FlowSafety.Path

variable {p : Path} {index : Nat} {s : Step}

/-! ## Steps -/

theorem validateOperation_of_validateStep (h : validateStep p index s = .ok ()) :
    validateOperation p index s = .ok () := by
  unfold validateStep at h
  split at h
  · split at h
    · exact h
    · contradiction
  · exact h

theorem validateStep_of_validateSteps {start : Nat} {ss : List Step}
    (h : validateSteps p start ss = .ok ()) (hs : ss[index]? = some s) :
    validateStep p (start + index) s = .ok () := by
  induction ss generalizing start index with
  | nil => simp at hs
  | cons s₀ ss ih =>
    obtain ⟨⟨⟩, hstep, hrest⟩ := bind_eq_ok.mp h
    cases index with
    | zero =>
      obtain rfl := Option.some.inj hs
      exact hstep
    | succ index =>
      have hnext := ih hrest hs
      rwa [Nat.add_right_comm] at hnext

theorem validate_parts (h : p.validate = .ok ()) :
    validateBranches 0 p.branches = .ok () ∧ validateStart p.steps = .ok () ∧
      validateSteps p 0 p.steps = .ok () := by
  unfold validate at h
  split at h
  · contradiction
  · obtain ⟨⟨⟩, hbranches, h⟩ := bind_eq_ok.mp h
    obtain ⟨⟨⟩, hstart, h⟩ := bind_eq_ok.mp h
    exact ⟨hbranches, hstart, h⟩

theorem version_of_validate (h : p.validate = .ok ()) : p.version = pathVersion := by
  unfold validate at h
  split at h
  · contradiction
  · next hversion => exact Decidable.not_not.mp hversion

/-- The operation of every step of a valid path fits its place. -/
theorem validateOperation_of_validate (h : p.validate = .ok ()) (hs : p.steps[index]? = some s) :
    validateOperation p index s = .ok () := by
  have hstep := validateStep_of_validateSteps (validate_parts h).2.2 hs
  rw [Nat.zero_add] at hstep
  exact validateOperation_of_validateStep hstep

/-! ## Sources -/

/-- A valid path has a source at its start and nowhere else. -/
theorem source_of_validate (h : p.validate = .ok ()) :
    ∃ src branch ss, p.steps = ⟨.source src, branch⟩ :: ss ∧
      ∀ s ∈ ss, ∀ src, s.op ≠ .source src := by
  have hstart := (validate_parts h).2.1
  unfold validateStart at hstart
  split at hstart
  · contradiction
  · next src branch ss hss =>
    refine ⟨src, branch, ss, hss, ?_⟩
    intro s hs src' hop
    obtain ⟨i, hi⟩ := List.getElem?_of_mem hs
    have hget : p.steps[i + 1]? = some s := by
      rw [hss]
      exact hi
    have hvalid := validateOperation_of_validate h hget
    unfold validateOperation at hvalid
    simp only [hop, Nat.add_one_ne_zero, if_false] at hvalid
    contradiction
  · contradiction

/-! ## Guards -/

/-- A guard of a valid path lies in the branch that it enters. -/
theorem branch_of_validate {id : Nat} (h : p.validate = .ok ()) (hs : p.steps[index]? = some s)
    (hop : s.op = .guard id) : s.branch = some id := by
  have hvalid := validateOperation_of_validate h hs
  unfold validateOperation at hvalid
  simp only [hop] at hvalid
  split at hvalid
  · contradiction
  · split at hvalid
    · next hbranch => exact hbranch
    · contradiction

/-- The branch that a guard of a valid path enters is in the table. -/
theorem entry_of_validate {id : Nat} (h : p.validate = .ok ()) (hs : p.steps[index]? = some s)
    (hop : s.op = .guard id) : ∃ b, p.branches[id]? = some b := by
  have hvalid := validateOperation_of_validate h hs
  unfold validateOperation at hvalid
  simp only [hop] at hvalid
  split at hvalid
  · contradiction
  · next b hb => exact ⟨b, hb⟩

/-! ## References -/

theorem lt_of_validateReferences {refs : List (Option Nat)} {target : Nat}
    (h : validateReferences index refs = .ok ()) (htarget : some target ∈ refs) :
    target < index := by
  induction refs with
  | nil => simp at htarget
  | cons ref refs ih =>
    cases ref with
    | none => exact ih h (by simpa using htarget)
    | some first =>
      unfold validateReferences at h
      split at h
      · contradiction
      · next hlt =>
        rcases List.mem_cons.mp htarget with he | htarget
        · cases he
          omega
        · exact ih h htarget

/-- The operands of a valid path refer to earlier steps. -/
theorem target_lt_of_operands {o : Operator} {operands : List Operand} {target : Nat}
    (h : p.validate = .ok ()) (hs : p.steps[index]? = some s) (hop : s.op = .numeric o operands)
    (htarget : .step target ∈ operands) : target < index := by
  have hvalid := validateOperation_of_validate h hs
  unfold validateOperation at hvalid
  simp only [hop] at hvalid
  obtain ⟨⟨⟩, hrefs, -⟩ := bind_eq_ok.mp hvalid
  exact lt_of_validateReferences hrefs (List.mem_map.mpr ⟨_, htarget, rfl⟩)

/-- So do its arguments. -/
theorem target_lt_of_arguments {name : String} {arguments : List Argument} {target : Nat}
    (h : p.validate = .ok ()) (hs : p.steps[index]? = some s)
    (hop : s.op = .string name arguments) (htarget : .step target ∈ arguments) :
    target < index := by
  have hvalid := validateOperation_of_validate h hs
  unfold validateOperation at hvalid
  simp only [hop] at hvalid
  exact lt_of_validateReferences hvalid (List.mem_map.mpr ⟨_, htarget, rfl⟩)

/-! ## Branches -/

theorem parent_lt_of_validateBranches {start i parent : Nat} {bs : List Branch} {b : Branch}
    (h : validateBranches start bs = .ok ()) (hb : bs[i]? = some b)
    (hparent : b.parent = some parent) : parent < start + i := by
  induction bs generalizing start i with
  | nil => simp at hb
  | cons b₀ bs ih =>
    -- the head comes after its parent, and the rest is valid from the next place on
    have hhead : (∀ k, b₀.parent = some k → k < start) ∧
        validateBranches (start + 1) bs = .ok () := by
      unfold validateBranches at h
      split at h
      · next k hk =>
        split at h
        · contradiction
        · next hlt =>
          refine ⟨?_, h⟩
          intro k' hk'
          rw [hk] at hk'
          cases hk'
          omega
      · next hnone => exact ⟨fun k hk => by rw [hnone] at hk; contradiction, h⟩
    cases i with
    | zero =>
      obtain rfl := Option.some.inj hb
      exact hhead.1 parent hparent
    | succ i =>
      have hrest := ih hhead.2 hb
      omega

/-- Every branch of a valid path comes after the one around it. -/
theorem parent_lt_of_validate {i parent : Nat} {b : Branch} (h : p.validate = .ok ())
    (hb : p.branches[i]? = some b) (hparent : b.parent = some parent) : parent < i := by
  have hlt := parent_lt_of_validateBranches (validate_parts h).1 hb hparent
  rwa [Nat.zero_add] at hlt

/-! ## Making a path valid -/

theorem validateReferences_of_lt {refs : List (Option Nat)}
    (h : ∀ target, some target ∈ refs → target < index) :
    validateReferences index refs = .ok () := by
  induction refs with
  | nil => rfl
  | cons ref refs ih =>
    have hrest := ih fun target htarget => h target (List.mem_cons_of_mem _ htarget)
    cases ref with
    | none => exact hrest
    | some target =>
      have hlt := h target List.mem_cons_self
      rw [validateReferences, if_neg (by omega), hrest]

theorem validateBranches_of_lt {start : Nat} {bs : List Branch}
    (h : ∀ (i : Nat) (b : Branch) (parent : Nat), bs[i]? = some b → b.parent = some parent →
      parent < start + i) : validateBranches start bs = .ok () := by
  induction bs generalizing start with
  | nil => rfl
  | cons b bs ih =>
    have hrest : validateBranches (start + 1) bs = .ok () := by
      refine ih fun i b' parent hb' hparent => ?_
      have hlt := h (i + 1) b' parent hb' hparent
      omega
    unfold validateBranches
    split
    · next parent hparent =>
      have hlt := h 0 b parent rfl hparent
      rw [if_neg (by omega), hrest]
    · exact hrest

/-- A step is valid if its branch is in the table and its operation fits. -/
theorem validateStep_eq_ok :
    validateStep p index s = .ok () ↔
      (∀ b, s.branch = some b → b < p.branches.length) ∧
        validateOperation p index s = .ok () := by
  unfold validateStep
  split
  · next b hb =>
    split
    · next hlt => simp [hb, hlt]
    · next hge => simp [hb, hge]
  · next hnone => simp [hnone]

/-- Of the path around it, a step that is no sink needs its branches only. -/
theorem validateStep_mono {q : Path} (hbranches : p.branches <+: q.branches)
    (hsink : ∀ k, s.op ≠ .sink k) (h : validateStep p index s = .ok ()) :
    validateStep q index s = .ok () := by
  obtain ⟨hbranch, hop⟩ := validateStep_eq_ok.mp h
  obtain ⟨more, hmore⟩ := hbranches
  refine validateStep_eq_ok.mpr ⟨fun b hb => ?_, ?_⟩
  · have hlt := hbranch b hb
    rw [← hmore, List.length_append]
    omega
  · unfold validateOperation at hop ⊢
    cases hs : s.op with
    | sink k => exact absurd hs (hsink k)
    | guard id =>
      simp only [hs] at hop ⊢
      cases hb : p.branches[id]? with
      | none =>
        rw [hb] at hop
        contradiction
      | some b =>
        have hlt : id < p.branches.length := (List.getElem?_eq_some_iff.mp hb).1
        have hq : q.branches[id]? = some b := by
          rw [← hmore, List.getElem?_append_left hlt, hb]
        rw [hb] at hop
        rw [hq]
        exact hop
    | source | numeric | string =>
      simp only [hs] at hop ⊢
      exact hop

theorem validateSteps_of_forall {start : Nat} {ss : List Step}
    (h : ∀ (i : Nat) (s : Step), ss[i]? = some s → validateStep p (start + i) s = .ok ()) :
    validateSteps p start ss = .ok () := by
  induction ss generalizing start with
  | nil => rfl
  | cons s ss ih =>
    refine bind_eq_ok.mpr ⟨(), h 0 s rfl, ih fun i s' hs' => ?_⟩
    have hstep := h (i + 1) s' hs'
    rwa [Nat.add_right_comm]

/-- A path of the right version is valid if its branches come after those around them, it starts
with a source, and all its steps are valid. -/
theorem validate_of_steps (hversion : p.version = pathVersion)
    (hparents : ∀ (i : Nat) (b : Branch) (parent : Nat), p.branches[i]? = some b →
      b.parent = some parent → parent < i)
    (hstart : ∃ src branch ss, p.steps = ⟨.source src, branch⟩ :: ss)
    (hsteps : ∀ (i : Nat) (s : Step), p.steps[i]? = some s → validateStep p i s = .ok ()) :
    p.validate = .ok () := by
  have hbranches : validateBranches 0 p.branches = .ok () := by
    refine validateBranches_of_lt fun i b parent hb hparent => ?_
    rw [Nat.zero_add]
    exact hparents i b parent hb hparent
  have hfirst : validateStart p.steps = .ok () := by
    obtain ⟨src, branch, ss, hss⟩ := hstart
    rw [hss]
    rfl
  have hall : validateSteps p 0 p.steps = .ok () := by
    refine validateSteps_of_forall fun i s hs => ?_
    rw [Nat.zero_add]
    exact hsteps i s hs
  unfold validate
  rw [if_neg (not_not.mpr hversion)]
  exact bind_eq_ok.mpr ⟨(), hbranches, bind_eq_ok.mpr ⟨(), hfirst, hall⟩⟩

end FlowSafety.Path
