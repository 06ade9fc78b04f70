import FlowSafety.Proofs.Path.Nesting
import FlowSafety.Proofs.Path.Validation
import FlowSafety.Proofs.Walk.Step

/-!
# The levels of a walk

The levels of a walk are those of nested branches, from the one that the last step is in outward to
the outside of all branches. Only the innermost level is looked at when branches are left; that no
other one is out of place follows from how levels come about.

* `Walk.Nested` — the branches of the levels, seen from a step
* `Walk.Reached.nested` — after every step of a valid path the levels are nested around it
* `Walk.Reached.kind` — they all hold integers, or all texts
-/

namespace FlowSafety

/-! ## Kinds -/

/-- The kind of a value. -/
def Value.kind : Value → ValueKind
  | .integer _ => .numeric
  | .text _ => .string

/-- The kind of the result of an operation on a value of some kind. -/
def Operation.kindAfter : Operation → ValueKind → ValueKind
  | .numeric _ _, _ => .numeric
  | .string _ _, _ => .string
  | _, k => k

namespace Walk

variable {p : Path} {c : Catalogue} {w w' : Walk} {index : Nat} {why : String} {ss : List Step}
  {s : Step}

theorem kind_of_renews {op : Operation} {v v' : Value} (h : Renews p c index w op v v') :
    v'.kind = op.kindAfter v.kind := by
  cases h with
  | @entered _ _ _ _ _ _ hv =>
    cases v with
    | integer iv =>
      obtain ⟨iv', rfl, -⟩ := Branch.refine_integer_eq_ok hv
      rfl
    | text g =>
      obtain ⟨g', rfl, -⟩ := Branch.refine_text_eq_ok hv
      rfl
  | _ => rfl

/-- All levels hold integers, or all of them texts. -/
theorem Reached.kind (h : Reached p c ss w) : ∃ k, ∀ l ∈ w.levels, l.value.kind = k := by
  induction h with
  | start => exact ⟨.string, fun l hl => by simp at hl⟩
  | @step ss s w w' _ hstep ih =>
    obtain ⟨k, hk⟩ := ih
    by_cases hsource : ∃ src, s.op = .source src
    · obtain ⟨src, hsrc⟩ := hsource
      refine ⟨(sourceValue src.kind).kind, ?_⟩
      intro l' hl'
      rcases step_values hstep hl' with ⟨src', hop, hv⟩ | ⟨l, -, hrenew⟩
      · rw [hsrc] at hop
        cases hop
        rw [hv]
      · rw [hsrc] at hrenew
        cases hrenew
    · refine ⟨s.op.kindAfter k, ?_⟩
      intro l' hl'
      rcases step_values hstep hl' with ⟨src, hop, -⟩ | ⟨l, hl, hrenew⟩
      · exact absurd ⟨src, hop⟩ hsource
      · rw [kind_of_renews hrenew, hk l hl]

/-! ## Branches -/

/-- The branches of the levels after an operation. -/
def branchesAfter : Operation → List (Option Nat) → List (Option Nat)
  | .source _, _ => [none]
  | .guard id, bs => some id :: bs
  | _, bs => bs

theorem map_branch_settled (accepts : Level → Bool) (ls : List Level) :
    (ls.map (Level.settled accepts)).map (·.branch) = ls.map (·.branch) := by
  rw [List.map_map]
  refine List.map_congr_left fun l _ => ?_
  exact Level.settled_branch accepts l

/-- What becomes of the levels one by one keeps their branches. -/
theorem map_branch_of_forall₂ {f : Level → Level → Prop} {ls ls' : List Level}
    (h : List.Forall₂ f ls ls') (hf : ∀ {l l'}, f l l' → l'.branch = l.branch) :
    ls'.map (·.branch) = ls.map (·.branch) := by
  induction h with
  | nil => rfl
  | cons hl _ ih => rw [List.map_cons, List.map_cons, hf hl, ih]

theorem apply_branches {op : Operation} (h : w.apply p c index op = .ok (w', why)) :
    w'.levels.map (·.branch) = branchesAfter op (w.levels.map (·.branch)) := by
  cases op with
  | source src =>
    obtain ⟨rfl, -⟩ := Prod.mk.inj (Except.ok.inj h)
    rfl
  | numeric o operands =>
    rcases applyNumeric_eq_ok h with ⟨name, _, rfl⟩ | ⟨_, ls, _, _, _, hls, rfl⟩
    · rw [forgetNumeric_levels, List.map_map]
      rfl
    · rw [map_branch_settled]
      exact map_branch_of_forall₂ hls numericLevel_branch
  | string name arguments =>
    rcases applyText_eq_ok h with ⟨_, rfl⟩ | ⟨_, _, ls, _, _, _, hls, rfl⟩
    · rw [forgetText_levels, List.map_map]
      rfl
    · rw [redact_levels, map_branch_settled]
      exact map_branch_of_forall₂ hls textLevel_branch
  | guard id =>
    obtain ⟨_, l, _, v, _, _, _, _, rfl⟩ := enterBranch_eq_ok h
    rw [map_branch_settled, List.map_cons, Level.enteredLevel_branch]
    rfl
  | sink k =>
    obtain ⟨rfl, -⟩ := Prod.mk.inj (Except.ok.inj h)
    rfl

/-! ## Nesting -/

/-- The branches of the levels of a walk after a step in a branch, the innermost first: the last one
is the outside of all branches, each encloses those further in, and all of them enclose the branch
of the step. -/
structure Nested (p : Path) (branch : Option Nat) (bs : List (Option Nat)) : Prop where
  outermost : bs.getLast? = some none
  nested : bs.Pairwise fun inner outer => p.encloses outer inner
  around : ∀ b ∈ bs, p.encloses b branch

theorem nested_outside (p : Path) (branch : Option Nat) : Nested p branch [none] where
  outermost := rfl
  nested := List.pairwise_singleton _ _
  around := fun b hb => by
    obtain rfl := List.mem_singleton.mp hb
    rfl

/-- Whatever branch the levels were nested around, those that are left are nested around the branch
of the step. -/
theorem Nested.leave {before branch : Option Nat} {ls : List Level}
    (h : Nested p before (ls.map (·.branch))) :
    Nested p branch ((leave p branch ls).map (·.branch)) := by
  obtain ⟨hlast, hnested, -⟩ := h
  induction ls with
  | nil => simp at hlast
  | cons inner ls ih =>
    cases ls with
    | nil =>
      refine ⟨hlast, hnested, ?_⟩
      intro b hb
      obtain rfl := List.mem_singleton.mp hb
      have hnone : inner.branch = none := Option.some.inj hlast
      show p.encloses inner.branch branch
      rw [hnone]
      rfl
    | cons outer ls =>
      obtain ⟨hhead, htail⟩ := List.pairwise_cons.mp hnested
      unfold Walk.leave
      split
      · next hinside =>
        refine ⟨hlast, hnested, ?_⟩
        intro b hb
        rcases List.mem_cons.mp hb with rfl | hb
        · exact hinside
        · exact Path.encloses_trans (hhead b hb) hinside
      · exact ih hlast htail

theorem Nested.branchesAfter {op : Operation} {branch : Option Nat} {bs : List (Option Nat)}
    (h : Nested p branch bs) (hguard : ∀ id, op = .guard id → branch = some id) :
    Nested p branch (branchesAfter op bs) := by
  cases op with
  | source src => exact nested_outside p branch
  | guard id =>
    obtain rfl := hguard id rfl
    obtain ⟨hlast, hnested, haround⟩ := h
    refine ⟨?_, List.pairwise_cons.mpr ⟨haround, hnested⟩, ?_⟩
    · show (some id :: bs).getLast? = some none
      rw [List.getLast?_cons, hlast]
      rfl
    · intro b hb
      rcases List.mem_cons.mp hb with rfl | hb
      · exact Path.encloses_refl p _
      · exact haround b hb
  | _ => exact h

theorem getElem?_length_of_concat {ts : List Step} (h : ss ++ [s] <+: ts) :
    ts[ss.length]? = some s := by
  obtain ⟨rest, rfl⟩ := h
  rw [List.append_assoc, List.getElem?_append_right (Nat.le_refl _), Nat.sub_self]
  rfl

/-- After every step of a valid path, the levels are nested around the branch of the step. -/
theorem Reached.nested (hp : p.validate = .ok ()) (h : Reached p c (ss ++ [s]) w)
    (hss : ss ++ [s] <+: p.steps) : Nested p s.branch (w.levels.map (·.branch)) := by
  induction ss using List.reverseRecOn generalizing s w with
  | nil =>
    obtain ⟨w₀, -, hstep⟩ := h.of_concat
    obtain ⟨w₁, why, l, ls, happly, -, rfl⟩ := step_eq_ok hstep
    obtain ⟨src, branch, rest, hsteps, -⟩ := Path.source_of_validate hp
    have hs := getElem?_length_of_concat hss
    rw [hsteps] at hs
    obtain rfl := Option.some.inj hs
    show Nested p branch (w₁.levels.map (·.branch))
    rw [apply_branches happly]
    exact nested_outside p branch
  | append_singleton ss s₀ ih =>
    obtain ⟨w₀, hw₀, hstep⟩ := h.of_concat
    obtain ⟨w₁, why, l, ls, happly, -, rfl⟩ := step_eq_ok hstep
    have hbefore : Nested p s₀.branch (w₀.levels.map (·.branch)) :=
      ih hw₀ ((List.prefix_append _ _).trans hss)
    show Nested p s.branch (w₁.levels.map (·.branch))
    rw [apply_branches happly]
    exact hbefore.leave.branchesAfter fun id hop =>
      Path.branch_of_validate hp (getElem?_length_of_concat hss) hop

/-! ## Records -/

theorem Reached.length_results (h : Reached p c ss w) : w.results.length = ss.length := by
  induction h with
  | start => rfl
  | step _ hstep ih =>
    obtain ⟨w₁, _, l, _, happly, -, rfl⟩ := step_eq_ok hstep
    show (w₁.results ++ [l.value]).length = _
    rw [(apply_recorded happly).1, List.length_append, List.length_append, ih]
    rfl

theorem Reached.length_trace (h : Reached p c ss w) : w.trace.length = ss.length := by
  induction h with
  | start => rfl
  | step _ hstep ih =>
    obtain ⟨w₁, _, l, _, happly, -, rfl⟩ := step_eq_ok hstep
    show (w₁.trace ++ [_]).length = _
    rw [(apply_recorded happly).2, List.length_append, List.length_append, ih]
    rfl

/-- The last result and the last entry of the trace are the value of the innermost level. -/
theorem Reached.recorded (h : Reached p c (ss ++ [s]) w) :
    ∃ l ls t, w.levels = l :: ls ∧ w.results[ss.length]? = some l.value ∧
      w.trace[ss.length]? = some t ∧ t.step = ss.length ∧ t.value = l.value := by
  obtain ⟨w₀, hw₀, hstep⟩ := h.of_concat
  obtain ⟨w₁, why, l, ls, happly, hls, rfl⟩ := step_eq_ok hstep
  obtain ⟨hresults, htrace⟩ := apply_recorded happly
  have hlast {α : Type} {xs : List α} {x : α} (hxs : xs.length = ss.length) :
      (xs ++ [x])[ss.length]? = some x := by
    rw [List.getElem?_append_right (Nat.le_of_eq hxs), hxs, Nat.sub_self]
    rfl
  refine ⟨l, ls, ⟨ss.length, s.op.text, l.value, why⟩, hls, ?_, ?_, rfl, rfl⟩
  · show (w₁.results ++ [l.value])[ss.length]? = _
    exact hlast (hresults ▸ hw₀.length_results)
  · show (w₁.trace ++ [_])[ss.length]? = _
    exact hlast (htrace ▸ hw₀.length_trace)

end Walk

/-! ## The whole walk -/

/-- After every step of a valid path, the levels are nested around the branch of the step with the
outside of all branches as the last, and hold values of one kind; every step has one result and one
entry of the trace, and those of this step are the value of the innermost level. -/
theorem levels_nested_after_step {p : Path} {c : Catalogue} {ss : List Step} {s : Step} {w : Walk}
    (hp : p.validate = .ok ()) (hss : ss ++ [s] <+: p.steps)
    (hw : Walk.Reached p c (ss ++ [s]) w) :
    Walk.Nested p s.branch (w.levels.map (·.branch)) ∧
      (∃ k, ∀ l ∈ w.levels, l.value.kind = k) ∧
      w.results.length = ss.length + 1 ∧ w.trace.length = ss.length + 1 ∧
      ∃ l ls t, w.levels = l :: ls ∧ w.results[ss.length]? = some l.value ∧
        w.trace[ss.length]? = some t ∧ t.step = ss.length ∧ t.value = l.value := by
  have hlength : (ss ++ [s]).length = ss.length + 1 := List.length_append
  exact ⟨hw.nested hp hss, hw.kind, hlength ▸ hw.length_results, hlength ▸ hw.length_trace,
    hw.recorded⟩

/-- A count that is compared with two limits, one inside of the other, and leaves the inner one. -/
def cappedTwice : Path :=
  { version := pathVersion
    branches :=
      [{ parent := none, condition := .compare .lt 100, outcome := .passed },
        { parent := some 0, condition := .compare .gt 10, outcome := .failed }]
    steps :=
      [⟨.source (.ofInteger "count" .i32), none⟩, ⟨.guard 0, some 0⟩, ⟨.guard 1, some 1⟩,
        ⟨.numeric .add [.const 1], some 0⟩, ⟨.sink .loopBound, none⟩] }

theorem levels_nested_cappedTwice :
    ∃ w, Walk.steps cappedTwice .empty 0 (cappedTwice.steps.take 4) {} = .ok w ∧
      w.levels.map (·.branch) = [some 0, none] ∧
      Walk.Nested cappedTwice (some 0) (w.levels.map (·.branch)) ∧
      w.results.length = 4 ∧ w.trace.length = 4 := by
  have hbranches :
      (Walk.steps cappedTwice .empty 0 (cappedTwice.steps.take 4) {}).toOption.map
        (·.levels.map (·.branch)) = some [some 0, none] := by
    decide +kernel
  obtain ⟨w, hw, hbranches⟩ := exists_ok_of_map_toOption hbranches
  have hreached : Walk.Reached cappedTwice .empty (cappedTwice.steps.take 3 ++
      [⟨.numeric .add [.const 1], some 0⟩]) w := Walk.reached_of_steps hw
  obtain ⟨hnested, -, hresults, htrace, -⟩ :=
    levels_nested_after_step rfl ⟨[⟨.sink .loopBound, none⟩], rfl⟩ hreached
  exact ⟨w, hw, hbranches, hnested, hresults, htrace⟩

end FlowSafety
