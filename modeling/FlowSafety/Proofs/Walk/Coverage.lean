import FlowSafety.Proofs.Walk.Step

/-!
# Walks that cover a run

A run of the program along a path gives one concrete value for every step, and the value that flows
is that of the last one. A walk covers the run if what it knows is true of these values: on every
level of branches of the value that flows, and in every result of the value of its step.

* `Walk.Covers.step` — a step keeps the walk covering if it does so on every single level
* `Walk.Covers.result` — a reference to an earlier step reads a covered value
-/

namespace FlowSafety.Walk

variable {α : Type} {holds : α → Value → Prop} {p : Path} {c : Catalogue} {w w' : Walk}
  {index : Nat} {s : Step} {xs : List α}

/-- What a walk knows holds of the values of a run. -/
structure Covers (holds : α → Value → Prop) (xs : List α) (w : Walk) : Prop where
  current : ∀ x ∈ xs.getLast?, ∀ l ∈ w.levels, holds x l.value
  results : List.Forall₂ holds xs w.results

theorem Covers.of_start (h : Reached p c [] w) : w.Covers holds [] := by
  generalize hss : ([] : List Step) = ss at h
  cases h with
  | start => exact ⟨fun _ hx => by simp at hx, .nil⟩
  | step _ _ => simp at hss

/-- The result that a reference reads holds of the value that the run reads there. -/
theorem Covers.result (h : Covers holds xs w) {target : Nat} {v : Value} {x : α}
    (hv : w.results[target]? = some v) (hx : xs[target]? = some x) : holds x v := by
  obtain ⟨hi, rfl⟩ := List.getElem?_eq_some_iff.mp hx
  obtain ⟨hj, rfl⟩ := List.getElem?_eq_some_iff.mp hv
  exact h.results.get hi hj

/-- The new value is covered if it is on every level that stems from a covered one. -/
theorem Covers.step {x : α} (h : Covers holds xs w) (hstep : w.step p c index s = .ok w')
    (hsource : ∀ src, s.op = .source src → holds x (sourceValue src.kind))
    (hrenews : ∀ v v', (∀ y ∈ xs.getLast?, holds y v) → Renews p c index w s.op v v' →
      holds x v') :
    Covers holds (xs ++ [x]) w' := by
  have hlevel : ∀ l' ∈ w'.levels, holds x l'.value := by
    intro l' hl'
    rcases step_values hstep hl' with ⟨src, hs, hv⟩ | ⟨l, hl, hrenew⟩
    · rw [hv]
      exact hsource src hs
    · exact hrenews l.value l'.value (fun y hy => h.current y hy l hl) hrenew
  obtain ⟨l, hl, hresults⟩ := step_results hstep
  constructor
  · intro y hy l' hl'
    rw [List.getLast?_concat, Option.mem_some] at hy
    obtain rfl := hy
    exact hlevel l' hl'
  · rw [hresults]
    exact List.rel_append h.results (.cons (hlevel l hl) .nil)

/-- A walk that enters a source covers the runs that start with one of its values. -/
theorem Covers.of_source {src : Source} {branch : Option Nat} {x : α}
    (h : Reached p c [⟨.source src, branch⟩] w) (hx : holds x (sourceValue src.kind)) :
    w.Covers holds [x] := by
  have hconcat : Reached p c ([] ++ [⟨.source src, branch⟩]) w := h
  obtain ⟨w₀, hw₀, hstep⟩ := hconcat.of_concat
  refine (Covers.of_start hw₀).step hstep ?_ ?_
  · rintro src' ⟨⟩
    exact hx
  · intro v v' _ hrenew
    cases hrenew

/-- Where nothing happens to the value, it stays covered. -/
theorem Covers.keep {x : α} (h : Covers holds xs w) (hx : xs.getLast? = some x)
    (hstep : w.step p c index s = .ok w') (hop : ∃ k, s.op = .sink k) :
    Covers holds (xs ++ [x]) w' := by
  obtain ⟨k, hk⟩ := hop
  refine h.step hstep ?_ ?_
  · intro src hs
    rw [hk] at hs
    cases hs
  · intro v v' hv hrenew
    rw [hk] at hrenew
    cases hrenew
    exact hv x hx

end FlowSafety.Walk
