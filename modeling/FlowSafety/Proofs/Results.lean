import Mathlib.Data.List.Forall2

/-!
# Results and faults

A computation that may fault is opened by what it says that it succeeded, and one over a list by
what it says that it succeeded on every element.

* `bind_eq_ok`, `map_eq_ok`, `mapError_eq_ok` — success of a composite
* `exists_ok_of_map_toOption` — success seen in a part of the result
* `forall₂_of_mapM_eq_ok` — success on a list
* `forall₂_image`, `pairwise_image` — relations between lists carry over to the results
* `FaultsIn` — what is known of every fault that a computation can end with
-/

namespace FlowSafety

/-! ## Results -/

variable {ε ε' α α' β β' : Type}

theorem bind_eq_ok {x : Except ε α} {f : α → Except ε β} {b : β} :
    x >>= f = .ok b ↔ ∃ a, x = .ok a ∧ f a = .ok b := by
  cases x with
  | error e => exact ⟨fun h => (nomatch h), fun ⟨_, h, _⟩ => (nomatch h)⟩
  | ok a => exact ⟨fun h => ⟨a, rfl, h⟩, fun ⟨_, h, hf⟩ => by cases h; exact hf⟩

theorem mapError_eq_ok {x : Except ε α} {f : ε → ε'} {a : α} :
    x.mapError f = .ok a ↔ x = .ok a := by
  cases x with
  | error e => exact ⟨fun h => (nomatch h), fun h => (nomatch h)⟩
  | ok a' => exact ⟨fun h => by cases h; rfl, fun h => by cases h; rfl⟩

theorem map_eq_ok {x : Except ε α} {f : α → β} {b : β} :
    x.map f = .ok b ↔ ∃ a, x = .ok a ∧ f a = b := by
  cases x with
  | error e => exact ⟨fun h => (nomatch h), fun ⟨_, h, _⟩ => (nomatch h)⟩
  | ok a =>
    exact ⟨fun h => ⟨a, rfl, Except.ok.inj h⟩, fun ⟨_, h, hf⟩ => by cases h; exact congrArg _ hf⟩

/-- A computation of which something is known has succeeded. -/
theorem exists_ok_of_map_toOption {x : Except ε α} {f : α → β} {b : β}
    (h : x.toOption.map f = some b) : ∃ a, x = .ok a ∧ f a = b := by
  cases x with
  | error e => contradiction
  | ok a => exact ⟨a, rfl, Option.some.inj h⟩

/-! ## Lists of results -/

theorem forall₂_of_mapM_eq_ok {f : α → Except ε β} {xs : List α} {ys : List β}
    (h : xs.mapM f = .ok ys) : List.Forall₂ (fun x y => f x = .ok y) xs ys := by
  induction xs generalizing ys with
  | nil =>
    cases h
    exact .nil
  | cons x xs ih =>
    rw [List.mapM_cons] at h
    obtain ⟨y, hy, h⟩ := bind_eq_ok.mp h
    obtain ⟨ys', hys, h⟩ := bind_eq_ok.mp h
    cases h
    exact .cons hy (ih hys)

theorem mapM_congr {f g : α → Except ε β} {xs : List α} (h : ∀ x ∈ xs, f x = g x) :
    xs.mapM f = xs.mapM g := by
  induction xs with
  | nil => rfl
  | cons x xs ih =>
    rw [List.mapM_cons, List.mapM_cons, h x List.mem_cons_self,
      ih fun y hy => h y (List.mem_cons_of_mem x hy)]

theorem exists_of_forall₂_of_mem {R : α → β → Prop} {xs : List α} {ys : List β} {y : β}
    (h : List.Forall₂ R xs ys) (hy : y ∈ ys) : ∃ x ∈ xs, R x y := by
  induction h with
  | nil => simp at hy
  | @cons x y' xs ys hr _ ih =>
    rcases List.mem_cons.mp hy with rfl | hy
    · exact ⟨x, List.mem_cons_self, hr⟩
    · obtain ⟨x', hx', hr'⟩ := ih hy
      exact ⟨x', List.mem_cons_of_mem x hx', hr'⟩

theorem exists_of_forall₂_of_mem_left {R : α → β → Prop} {xs : List α} {ys : List β} {x : α}
    (h : List.Forall₂ R xs ys) (hx : x ∈ xs) : ∃ y ∈ ys, R x y :=
  exists_of_forall₂_of_mem (R := fun y x => R x y) h.flip hx

/-- Where two lists are related, so are the lists of what becomes of their elements. -/
theorem forall₂_image {R : α → α' → Prop} {S : β → β' → Prop} {f : α → β → Prop}
    {f' : α' → β' → Prop} {xs : List α} {xs' : List α'} {ys : List β} {ys' : List β'}
    (h : List.Forall₂ R xs xs') (hys : List.Forall₂ f xs ys) (hys' : List.Forall₂ f' xs' ys')
    (hstep : ∀ {x x' y y'}, R x x' → f x y → f' x' y' → S y y') : List.Forall₂ S ys ys' := by
  induction h generalizing ys ys' with
  | nil =>
    cases hys
    cases hys'
    exact .nil
  | cons hx _ ih =>
    cases hys with
    | cons hy hys =>
      cases hys' with
      | cons hy' hys' => exact .cons (hstep hx hy hy') (ih hys hys')

/-- Where the elements of a list are related among each other, so is what becomes of them. -/
theorem pairwise_image {R : α → α → Prop} {S : β → β → Prop} {f : α → β → Prop} {xs : List α}
    {ys : List β} (h : xs.Pairwise R) (hys : List.Forall₂ f xs ys)
    (hstep : ∀ x ∈ xs, ∀ x' ∈ xs, ∀ {y y'}, R x x' → f x y → f x' y' → S y y') :
    ys.Pairwise S := by
  induction hys with
  | nil => exact .nil
  | @cons x y xs ys hy hys ih =>
    obtain ⟨hhead, htail⟩ := List.pairwise_cons.mp h
    refine List.pairwise_cons.mpr ⟨?_, ?_⟩
    · intro y' hy'
      obtain ⟨x', hx', hf⟩ := exists_of_forall₂_of_mem hys hy'
      exact hstep x List.mem_cons_self x' (List.mem_cons_of_mem x hx') (hhead x' hx') hy hf
    · exact ih htail fun x₁ h₁ x₂ h₂ =>
        hstep x₁ (List.mem_cons_of_mem x h₁) x₂ (List.mem_cons_of_mem x h₂)

/-! ## Faults -/

/-- Every fault that the computation ends with has a property. -/
def FaultsIn (P : ε → Prop) (x : Except ε α) : Prop := ∀ e, x = .error e → P e

namespace FaultsIn

variable {P : ε → Prop} {x : Except ε α}

theorem ok (a : α) : FaultsIn P (.ok a) := fun _ h => nomatch h

theorem error {e : ε} (h : P e) : FaultsIn P (.error e : Except ε α) := fun _ he => by
  cases he
  exact h

theorem bind {f : α → Except ε β} (hx : FaultsIn P x)
    (hf : ∀ a, x = .ok a → FaultsIn P (f a)) : FaultsIn P (x >>= f) := by
  cases x with
  | error e => exact error (hx e rfl)
  | ok a => exact hf a rfl

theorem map {f : α → β} (hx : FaultsIn P x) : FaultsIn P (x.map f) := by
  cases x with
  | error e => exact error (hx e rfl)
  | ok a => exact ok (f a)

theorem mapError {Q : ε' → Prop} {f : ε → ε'} (hx : FaultsIn P x) (h : ∀ e, P e → Q (f e)) :
    FaultsIn Q (x.mapError f) := by
  cases x with
  | error e => exact error (h e (hx e rfl))
  | ok a => exact ok a

theorem mapM {f : α → Except ε β} {xs : List α} (h : ∀ x ∈ xs, FaultsIn P (f x)) :
    FaultsIn P (xs.mapM f) := by
  induction xs with
  | nil => exact ok []
  | cons x xs ih =>
    rw [List.mapM_cons]
    refine (h x List.mem_cons_self).bind fun y _ => ?_
    exact (ih fun x hx => h x (List.mem_cons_of_mem _ hx)).bind fun ys _ => ok (y :: ys)

end FaultsIn

end FlowSafety
