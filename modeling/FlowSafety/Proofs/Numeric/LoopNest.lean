import FlowSafety.Proofs.Interval.Work
import FlowSafety.Proofs.Walk.Summary
import Mathlib.Algebra.BigOperators.Ring.Finset

/-!
# Loop nests are decided exactly

The check of a nest multiplies interval by interval, sends every product to 64 bits and lets an
empty interval absorb the rest. It still decides about the exact product: a nest is safe if each of
its loops is, and the loops together run at most as often as the ceiling allows or never at all.
That does not depend on the order of the loops.

* `LoopBound.checkNest_safe_iff` — the condition under which a nest is safe
* `Classifier.classifyNest_outcome` — the nest of some paths, from the bounds that they end in
-/

namespace FlowSafety

namespace Outcome

variable {a b : Outcome}

theorem worst_ne_unknown (ha : a ≠ .unknown) (hb : b ≠ .unknown) : a.worst b ≠ .unknown := by
  cases a <;> cases b <;> simp_all [worst]

/-- Decisions other than unknown differ only in what they call safe. -/
theorem eq_of_safe_iff (ha : a ≠ .unknown) (hb : b ≠ .unknown) (h : a = .safe ↔ b = .safe) :
    a = b := by
  cases a <;> cases b <;> simp_all

end Outcome

namespace LoopBound

variable {bounds bounds' : List Interval} {iv total : Interval} {ceiling depth : Nat} {n : ℕ∞}

/-! ## Work -/

/-- The exact product of how often the loops of a nest run at most. -/
def mostWork (bounds : List Interval) : ℕ∞ := (bounds.map fun iv => iv.high.count).prod

/-- Loops inside others multiply the work. -/
theorem isCounting_foldl (htotal : total.IsCounting n)
    (h : ∀ iv ∈ bounds, iv.isEmpty = false) :
    (bounds.foldl (fun total iv => total.mul iv.iterations) total).IsCounting
      (n * mostWork bounds) := by
  induction bounds generalizing total n with
  | nil =>
    rw [mostWork, List.map_nil, List.prod_nil, mul_one]
    exact htotal
  | cons iv bounds ih =>
    have hiv := Interval.isCounting_iterations (h iv List.mem_cons_self)
    have hrest := ih (htotal.mul hiv) fun iv' hiv' => h iv' (List.mem_cons_of_mem iv hiv')
    rw [mul_assoc] at hrest
    exact hrest

theorem foldl_mul_empty (bounds : List Interval) :
    bounds.foldl (fun total iv => Interval.mul total iv.iterations) .empty = .empty := by
  induction bounds with
  | nil => rfl
  | cons iv bounds ih => exact ih

/-- A loop that is never reached leaves no work. -/
theorem foldl_mul_of_isEmpty (hiv : iv ∈ bounds) (hempty : iv.isEmpty = true)
    (total : Interval) :
    bounds.foldl (fun total iv => total.mul iv.iterations) total = .empty := by
  induction bounds generalizing total with
  | nil => simp at hiv
  | cons iv' bounds ih =>
    rcases List.mem_cons.mp hiv with rfl | hiv
    · rw [List.foldl_cons, Interval.iterations_of_isEmpty hempty, Interval.mul_empty_right]
      exact foldl_mul_empty bounds
    · exact ih hiv _

/-! ## Decisions -/

/-- The loops of a nest together run at most as often as the ceiling allows, or never at all. -/
def WorkFits (bounds : List Interval) (ceiling : Nat) : Prop :=
  (∃ iv ∈ bounds, iv.isEmpty = true) ∨ mostWork bounds ≤ (min ceiling (2 ^ 63 - 1) : ℕ)

theorem checkWork_outcome_safe :
    (checkWork bounds ceiling).outcome = .safe ↔ WorkFits bounds ceiling := by
  by_cases hempty : ∃ iv ∈ bounds, iv.isEmpty = true
  · obtain ⟨iv, hiv, hiv'⟩ := hempty
    have hwork : work bounds = .empty := foldl_mul_of_isEmpty hiv hiv' _
    unfold checkWork
    rw [hwork]
    exact iff_of_true rfl (Or.inl ⟨iv, hiv, hiv'⟩)
  · have hcount : (work bounds).IsCounting (1 * mostWork bounds) :=
      isCounting_foldl Interval.isCounting_one fun iv hiv =>
        Bool.not_eq_true _ ▸ fun h => hempty ⟨iv, hiv, h⟩
    rw [one_mul] at hcount
    have hfits : (work bounds).high ≤ .ofCount ceiling ↔ WorkFits bounds ceiling := by
      rw [hcount.high, Bound.ofWork_le_ofCount]
      exact (or_iff_right hempty).symm
    rw [← hfits]
    unfold checkWork
    by_cases hle : (work bounds).high ≤ .ofCount ceiling
    · simp [hcount.isEmpty, hle]
    · simp [hcount.isEmpty, hle]

theorem checkEach_outcome_safe (bounds : List Interval) (ceiling depth : Nat) :
    (checkEach ceiling depth bounds).outcome = .safe ↔
      ∀ iv ∈ bounds, (check iv ceiling none).outcome = .safe := by
  induction bounds generalizing depth with
  | nil => exact iff_of_true rfl (by simp)
  | cons iv bounds ih =>
    have hrest := ih (depth + 1)
    rw [List.forall_mem_cons, ← hrest]
    exact Outcome.worst_eq_safe

/-- A nest is safe if each of its loops is, and they fit the ceiling together. -/
theorem checkNest_safe_iff :
    (checkNest bounds ceiling).outcome = .safe ↔
      (∀ iv ∈ bounds, (check iv ceiling none).outcome = .safe) ∧ WorkFits bounds ceiling := by
  rw [← checkEach_outcome_safe bounds ceiling 0, ← checkWork_outcome_safe]
  exact Outcome.worst_eq_safe

theorem check_outcome_ne_unknown (iv : Interval) (ceiling : Nat) (boundingStep : Option Nat) :
    (check iv ceiling boundingStep).outcome ≠ .unknown := by
  unfold check
  split_ifs <;> simp

theorem checkEach_outcome_ne_unknown (bounds : List Interval) (ceiling depth : Nat) :
    (checkEach ceiling depth bounds).outcome ≠ .unknown := by
  induction bounds generalizing depth with
  | nil => simp [checkEach]
  | cons iv bounds ih =>
    exact Outcome.worst_ne_unknown (check_outcome_ne_unknown iv ceiling none) (ih (depth + 1))

theorem checkNest_outcome_ne_unknown (bounds : List Interval) (ceiling : Nat) :
    (checkNest bounds ceiling).outcome ≠ .unknown := by
  refine Outcome.worst_ne_unknown (checkEach_outcome_ne_unknown bounds ceiling 0) ?_
  unfold checkWork
  simp only
  split_ifs <;> simp

/-! ## The order of the loops -/

theorem mostWork_perm (h : bounds.Perm bounds') : mostWork bounds = mostWork bounds' :=
  (h.map _).prod_eq

theorem checkNest_outcome_perm (h : bounds.Perm bounds') :
    (checkNest bounds ceiling).outcome = (checkNest bounds' ceiling).outcome := by
  refine Outcome.eq_of_safe_iff (checkNest_outcome_ne_unknown bounds ceiling)
    (checkNest_outcome_ne_unknown bounds' ceiling) ?_
  rw [checkNest_safe_iff, checkNest_safe_iff, WorkFits, WorkFits, mostWork_perm h]
  simp only [h.mem_iff]

theorem workFits_singleton {boundingStep : Option Nat}
    (h : (check iv ceiling boundingStep).outcome = .safe) : WorkFits [iv] ceiling := by
  have hfits : max iv.high (.finite 0) ≤ .ofCount ceiling → WorkFits [iv] ceiling := by
    rw [Bound.max_zero_eq, Bound.ofWork_le_ofCount]
    intro hle
    rw [WorkFits, mostWork, List.map_singleton, List.prod_singleton]
    exact Or.inr hle
  have hzero := Bound.zero_le_ofCount ceiling
  rcases check_outcome_safe.mp h with hempty | hneg | hle
  · exact Or.inl ⟨iv, List.mem_cons_self, hempty⟩
  · exact hfits (max_le (hneg.le.trans hzero) hzero)
  · exact hfits (max_le hle hzero)

/-- A nest of one loop is decided like the loop. -/
theorem checkNest_singleton (iv : Interval) (ceiling : Nat) (boundingStep : Option Nat) :
    (checkNest [iv] ceiling).outcome = (check iv ceiling boundingStep).outcome := by
  refine Outcome.eq_of_safe_iff (checkNest_outcome_ne_unknown [iv] ceiling)
    (check_outcome_ne_unknown iv ceiling boundingStep) ?_
  have hstep : (check iv ceiling none).outcome = (check iv ceiling boundingStep).outcome :=
    check_outcome_congr
  rw [checkNest_safe_iff, List.forall_mem_singleton, hstep]
  exact and_iff_left_of_imp workFits_singleton

/-! ## Concrete work -/

/-- Loops run together at most as often as their upper ends allow. -/
theorem prod_le_mostWork {zs : List Int} (h : List.Forall₂ (fun z iv => z ∈ iv) zs bounds) :
    ((zs.map Int.toNat).prod : ℕ∞) ≤ mostWork bounds := by
  induction h with
  | nil => exact le_refl _
  | @cons z iv zs bounds hz _ ih =>
    rw [List.map_cons, List.prod_cons, Nat.cast_mul]
    exact mul_le_mul' (Bound.toInt_le_count hz.2) ih

/-- Where the work fits, no run of the loops does more than the ceiling allows. -/
theorem prod_le_ceiling_of_workFits (h : WorkFits bounds ceiling) {zs : List Int}
    (hzs : List.Forall₂ (fun z iv => z ∈ iv) zs bounds) :
    (zs.map fun z => max z 0).prod ≤ ceiling := by
  have hcast : (zs.map fun z => max z 0).prod = ((zs.map Int.toNat).prod : Int) := by
    rw [Nat.cast_list_prod, List.map_map]
    exact congrArg List.prod (List.map_congr_left fun z _ => (Int.toNat_eq_max z).symm)
  rw [hcast, Nat.cast_le]
  rcases h with ⟨iv, hiv, hempty⟩ | hle
  · -- an empty interval has no member that a loop could run up to
    obtain ⟨z, -, hz⟩ := exists_of_forall₂_of_mem hzs hiv
    rw [Interval.isEmpty_eq_false_of_mem hz] at hempty
    contradiction
  · have hwork := (prod_le_mostWork hzs).trans hle
    rw [Nat.cast_le] at hwork
    exact hwork.trans (min_le_left _ _)

/-- A nest is safe exactly if each of its loops is and either one of them is never reached or the
exact product of how often they run at most is within the ceiling; else it is unsafe. If it is safe,
the loops run together at most as often as the ceiling allows, whatever their bounds turn out to
be. -/
theorem checkNest_decides_exactly (bounds : List Interval) (ceiling : Nat) :
    ((checkNest bounds ceiling).outcome = .safe ↔
        (∀ iv ∈ bounds, (check iv ceiling none).outcome = .safe) ∧
          ((∃ iv ∈ bounds, iv.isEmpty = true) ∨
            (bounds.map fun iv => iv.high.count).prod ≤ (min ceiling (2 ^ 63 - 1) : ℕ))) ∧
      ((checkNest bounds ceiling).outcome ≠ .safe →
        (checkNest bounds ceiling).outcome = .unsafeFlow) ∧
      ((checkNest bounds ceiling).outcome = .safe →
        ∀ zs : List Int, List.Forall₂ (fun z iv => z ∈ iv) zs bounds →
          (zs.map fun z => max z 0).prod ≤ ceiling) := by
  refine ⟨checkNest_safe_iff, ?_, ?_⟩
  · intro h
    cases ho : (checkNest bounds ceiling).outcome with
    | safe => exact absurd ho h
    | unknown => exact absurd ho (checkNest_outcome_ne_unknown bounds ceiling)
    | unsafeFlow => rfl
  · intro h zs hzs
    exact prod_le_ceiling_of_workFits (checkNest_safe_iff.mp h).2 hzs

/-- Two long loops around one that never runs. -/
def idleNest : List Interval :=
  [.range 0 1099511627776, .range 1 1099511627776, .range (-5) 0]

/-- The work of the outer loops alone is beyond 64 bits, but the innermost loop never runs. -/
theorem checkNest_idleNest :
    (checkNest idleNest (2 ^ 41)).outcome = .safe ∧
      List.Forall₂ (fun z iv => z ∈ iv) [2 ^ 40, 7, -2] idleNest ∧
      ([2 ^ 40, 7, -2].map fun z => max z (0 : Int)).prod ≤ (2 ^ 41 : ℕ) := by
  obtain ⟨-, -, hwork⟩ := checkNest_decides_exactly idleNest (2 ^ 41)
  have hsafe : (checkNest idleNest (2 ^ 41)).outcome = .safe := by decide
  have hmem : List.Forall₂ (fun z iv => z ∈ iv) [2 ^ 40, 7, -2] idleNest :=
    .cons (by decide) (.cons (by decide) (.cons (by decide) .nil))
  exact ⟨hsafe, hmem, hwork hsafe _ hmem⟩

end LoopBound

namespace Classifier

variable {c : Classifier} {p : Path} {ps qs : List Path}

/-! ## Nests of paths -/

/-- The bound of the loop that a path ends in. -/
def loopBound? (c : Classifier) (p : Path) : Option Interval :=
  match c.summarize p with
  | .ok s => if s.sink = some .loopBound then s.value.interval? else none
  | .error _ => none

theorem loopBound?_eq_some {iv : Interval} :
    c.loopBound? p = some iv ↔
      ∃ s, c.summarize p = .ok s ∧ s.sink = some .loopBound ∧ s.value = .integer iv := by
  unfold loopBound?
  cases c.summarize p with
  | error f => simp
  | ok s =>
    by_cases hsink : s.sink = some .loopBound
    · cases hv : s.value <;> simp [hsink, hv, Value.interval?]
    · simp [hsink]

/-- A path that ends in a loop bound adds a loop to the nest. -/
theorem classifyInner_of_some {iv : Interval} (h : c.loopBound? p = some iv) (depth : Nat)
    (n : Nest) (ps : List Path) :
    ∃ s, c.classifyInner depth n (p :: ps) =
      c.classifyInner (depth + 1) (addLoop n depth s iv) ps := by
  obtain ⟨s, hs, hsink, hvalue⟩ := loopBound?_eq_some.mp h
  refine ⟨s, ?_⟩
  rw [classifyInner, hs]
  simp only [hsink, hvalue]

theorem classifyInner_of_none {depth : Nat} {n : Nest} (h : c.loopBound? p = none) :
    (c.classifyInner depth n (p :: ps)).outcome = .unknown := by
  rw [classifyInner]
  cases hs : c.summarize p with
  | error f => rfl
  | ok s =>
    simp only
    split
    · next iv hsink hvalue =>
      rw [loopBound?_eq_some.mpr ⟨s, hs, hsink, hvalue⟩] at h
      contradiction
    · rfl

/-- The outcome of a nest, given the bounds of the outer loops. A path without a loop bound leaves
the nest unknown, wherever it stands. -/
theorem classifyInner_outcome (depth : Nat) (n : Nest) (ps : List Path) :
    (c.classifyInner depth n ps).outcome =
      if ps.all fun p => (c.loopBound? p).isSome then
        (LoopBound.checkNest (n.bounds ++ ps.filterMap c.loopBound?) c.ceiling).outcome
      else .unknown := by
  induction ps generalizing depth n with
  | nil => simp [classifyInner, nestVerdict]
  | cons p ps ih =>
    rw [List.all_cons]
    cases hp : c.loopBound? p with
    | none =>
      rw [classifyInner_of_none hp]
      simp
    | some iv =>
      obtain ⟨s, hs⟩ := classifyInner_of_some hp depth n ps
      rw [hs, ih, List.filterMap_cons_some hp]
      simp [addLoop]

theorem classifyNest_outcome (c : Classifier) (ps : List Path) :
    (c.classifyNest ps).outcome =
      if ps.all fun p => (c.loopBound? p).isSome then
        (LoopBound.checkNest (ps.filterMap c.loopBound?) c.ceiling).outcome
      else .unknown :=
  classifyInner_outcome 0 {} ps

theorem classifyNest_outcome_perm (h : ps.Perm qs) :
    (c.classifyNest ps).outcome = (c.classifyNest qs).outcome := by
  rw [classifyNest_outcome, classifyNest_outcome, h.all_eq,
    LoopBound.checkNest_outcome_perm (h.filterMap c.loopBound?)]

/-- The verdict on a path that ends in a loop bound is that of the check on its interval, and
unknown if it has none. -/
theorem classify_outcome_of_loopBound (hsink : p.sink? = some .loopBound) :
    (c.classify p).outcome =
      match c.loopBound? p with
      | some iv => (LoopBound.check iv c.ceiling none).outcome
      | none => .unknown := by
  unfold loopBound?
  cases hs : c.summarize p with
  | error f => exact classify_outcome_of_error hs
  | ok s =>
    have hs' : s.sink = some .loopBound := summarize_sink hs hsink
    have htext : ¬ Sink.loopBound.takesText = true := by decide
    rw [classify_outcome hs, outcomeOf, assess, hs']
    simp only [hs', htext, if_true, LoopBound.checkSummary?]
    cases s.value.interval? with
    | none => rfl
    | some iv => exact LoopBound.check_outcome_congr

/-- A path that ends in a loop bound gets the same outcome on its own as in a nest of its own, and
the order of the loops of a nest does not matter. -/
theorem nest_of_one_and_any_order (c : Classifier) :
    (∀ p : Path, p.sink? = some .loopBound →
        (c.classifyNest [p]).outcome = (c.classify p).outcome) ∧
      ∀ ps qs : List Path, ps.Perm qs →
        (c.classifyNest ps).outcome = (c.classifyNest qs).outcome := by
  refine ⟨?_, fun ps qs h => classifyNest_outcome_perm h⟩
  intro p hsink
  rw [classifyNest_outcome, classify_outcome_of_loopBound hsink]
  cases hp : c.loopBound? p with
  | none => simp [hp]
  | some iv =>
    rw [List.filterMap_cons_some hp]
    simp [hp]
    exact LoopBound.checkNest_singleton iv c.ceiling none

/-- A loop that counts up to an unknown integer, but no further than `limit`. -/
def cappedCount (limit : Int64) : Path :=
  { version := pathVersion
    branches := []
    steps :=
      [⟨.source (.ofInteger "count" .i64), none⟩, ⟨.numeric .min [.const limit], none⟩,
        ⟨.sink .loopBound, none⟩] }

theorem nest_of_cappedCounts :
    ((ofEntries 100 []).classifyNest [cappedCount 200]).outcome = .unsafeFlow ∧
      ((ofEntries 100 []).classify (cappedCount 200)).outcome = .unsafeFlow ∧
      ((ofEntries 100 []).classifyNest [cappedCount 4, cappedCount 25]).outcome = .safe ∧
      ((ofEntries 100 []).classifyNest [cappedCount 25, cappedCount 4]).outcome = .safe := by
  obtain ⟨hone, hperm⟩ := nest_of_one_and_any_order (ofEntries 100 [])
  have halone : ((ofEntries 100 []).classify (cappedCount 200)).outcome = .unsafeFlow := by
    decide
  have hinner : ((ofEntries 100 []).classifyNest [cappedCount 4, cappedCount 25]).outcome =
      .safe := by
    decide
  refine ⟨(hone _ rfl).trans halone, halone, hinner, ?_⟩
  exact (hperm _ _ (.swap _ _ [])).trans hinner

end Classifier

end FlowSafety
