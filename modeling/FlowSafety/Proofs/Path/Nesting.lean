import FlowSafety.Path.Basic
import Mathlib.Logic.Function.Iterate

/-!
# Nesting of branches

A branch encloses itself and the branches inside of it, and the outside of all branches encloses
everything. Which branch encloses which depends on the parents in the table alone.

* `encloses_refl`, `encloses_trans` — enclosing is a preorder
* `encloses_congr` — conditions and outcomes do not matter
* `around_ends` — the way up from a branch ends outside of all branches
* `encloses_iff_around` — what encloses a branch is what the way up comes by
-/

namespace FlowSafety.Path

variable {p q : Path} {a b c : Option Nat}

/-! ## Laws -/

theorem liesIn_self (bs : List Branch) (i : Nat) : liesIn bs i i = true := by
  rw [liesIn, if_pos rfl]

/-- The way up from the innermost branch goes through the middle one. -/
theorem liesIn_trans {bs : List Branch} {i j k : Nat} (hij : liesIn bs i j = true)
    (hjk : liesIn bs j k = true) : liesIn bs i k = true := by
  induction k using Nat.strongRecOn with
  | ind k ih =>
    rw [liesIn] at hjk
    split at hjk
    · next hkj =>
      rw [hkj]
      exact hij
    · split at hjk
      · next parent _ _ hbranch =>
        split at hjk
        · next hlt =>
          rw [liesIn]
          split
          · rfl
          · rw [hbranch]
            simp only [hlt, if_true]
            exact ih parent hlt hjk
        · contradiction
      · contradiction

theorem encloses_refl (p : Path) (a : Option Nat) : p.encloses a a = true := by
  cases a with
  | none => rfl
  | some i => exact liesIn_self p.branches i

theorem encloses_trans (hab : p.encloses a b = true) (hbc : p.encloses b c = true) :
    p.encloses a c = true := by
  cases a with
  | none => rfl
  | some i =>
    cases b with
    | none => contradiction
    | some j =>
      cases c with
      | none => contradiction
      | some k => exact liesIn_trans hab hbc

/-- What encloses the one and not the other does not enclose anything around the other. -/
theorem not_encloses_of_encloses (hac : p.encloses a c = false) (hbc : p.encloses b c = true) :
    p.encloses a b = false := by
  rw [← Bool.not_eq_true] at hac ⊢
  exact fun hab => hac (encloses_trans hab hbc)

/-! ## Parents -/

theorem liesIn_congr {bs bs' : List Branch}
    (h : ∀ i : Nat, bs[i]?.map (·.parent) = bs'[i]?.map (·.parent)) (i j : Nat) :
    liesIn bs i j = liesIn bs' i j := by
  induction j using Nat.strongRecOn with
  | ind j ih =>
    have hparent := h j
    rw [liesIn, liesIn]
    cases hj : bs[j]? with
    | none =>
      cases hj' : bs'[j]? with
      | none => rfl
      | some b' =>
        rw [hj, hj'] at hparent
        contradiction
    | some b =>
      cases hj' : bs'[j]? with
      | none =>
        rw [hj, hj'] at hparent
        contradiction
      | some b' =>
        rw [hj, hj'] at hparent
        obtain ⟨parent, _, _⟩ := b
        obtain ⟨parent', _, _⟩ := b'
        obtain rfl : parent = parent' := Option.some.inj hparent
        cases parent with
        | none => rfl
        | some k =>
          by_cases hk : k < j
          · simp only [hk, if_true, ih k hk]
          · simp only [hk, if_false]

/-- Tables with the same parents nest their branches in the same way. -/
theorem encloses_congr
    (h : ∀ i : Nat, p.branches[i]?.map (·.parent) = q.branches[i]?.map (·.parent)) :
    p.encloses = q.encloses := by
  funext a b
  cases a with
  | none => rfl
  | some i =>
    cases b with
    | none => rfl
    | some j => exact liesIn_congr h i j

/-! ## The way up -/

/-- The branch around a branch, as the table has it. There is none around the outside of all
branches, nor around a branch that is not in the table. -/
def around (p : Path) (b : Option Nat) : Option Nat :=
  b.bind fun i => p.branches[i]?.bind (·.parent)

/-- Every branch comes after the one around it. -/
def ParentsFirst (p : Path) : Prop :=
  ∀ (i : Nat) (b : Branch) (parent : Nat), p.branches[i]? = some b → b.parent = some parent →
    parent < i

theorem around_lt {i j : Nat} (h : p.ParentsFirst) (hj : p.around (some i) = some j) : j < i := by
  have hentry : p.branches[i]?.bind (·.parent) = some j := hj
  obtain ⟨branch, hbranch, hparent⟩ := Option.bind_eq_some_iff.mp hentry
  exact h i branch j hbranch hparent

theorem around_ends_below (h : p.ParentsFirst) (i : Nat) :
    ∃ n ≤ i + 1, p.around^[n] (some i) = none := by
  induction i using Nat.strongRecOn with
  | ind i ih =>
    cases hparent : p.around (some i) with
    | none => exact ⟨1, by omega, hparent⟩
    | some j =>
      have hlt := around_lt h hparent
      obtain ⟨n, hn, hend⟩ := ih j hlt
      refine ⟨n + 1, by omega, ?_⟩
      rw [Function.iterate_succ_apply, hparent]
      exact hend

/-- The way up from any branch ends after at most as many steps as there are branches, and one. -/
theorem around_ends (h : p.ParentsFirst) (b : Option Nat) :
    ∃ n ≤ p.branches.length + 1, p.around^[n] b = none := by
  cases b with
  | none => exact ⟨0, by omega, rfl⟩
  | some i =>
    by_cases hi : i < p.branches.length
    · obtain ⟨n, hn, hend⟩ := around_ends_below h i
      exact ⟨n, by omega, hend⟩
    · refine ⟨1, by omega, ?_⟩
      simp [around, Nat.not_lt.mp hi]

theorem iterate_around_none (p : Path) (n : Nat) : p.around^[n] none = none :=
  Function.iterate_fixed rfl n

/-- The way up comes by what it starts from, and by whatever the way up from the parent does. -/
theorem exists_iterate_around {i : Nat} {b : Option Nat} (hb : b ≠ some i) :
    (∃ n, p.around^[n] b = some i) ↔ ∃ n, p.around^[n] (p.around b) = some i := by
  constructor
  · rintro ⟨n, hn⟩
    cases n with
    | zero => exact absurd hn hb
    | succ n => exact ⟨n, hn⟩
  · rintro ⟨n, hn⟩
    exact ⟨n + 1, hn⟩

theorem liesIn_iff_around {i j : Nat} (h : p.ParentsFirst) :
    liesIn p.branches i j = true ↔ ∃ n, p.around^[n] (some j) = some i := by
  induction j using Nat.strongRecOn with
  | ind j ih =>
    rw [liesIn]
    by_cases hij : j = i
    · rw [if_pos hij, hij]
      exact ⟨fun _ => ⟨0, rfl⟩, fun _ => rfl⟩
    · rw [if_neg hij, exists_iterate_around fun he => hij (Option.some.inj he)]
      cases hentry : p.branches[j]? with
      | none =>
        have hnone : p.around (some j) = none := by simp [around, hentry]
        simp [hnone, iterate_around_none]
      | some branch =>
        obtain ⟨parent, condition, outcome⟩ := branch
        have haround : p.around (some j) = parent := by simp [around, hentry]
        rw [haround]
        cases parent with
        | none => simp [iterate_around_none]
        | some k =>
          have hlt : k < j := h j _ k hentry rfl
          simp only [hlt, if_true]
          exact ih k hlt

/-- A branch encloses another one exactly if the way up from that one comes by it. -/
theorem encloses_iff_around {i : Nat} {b : Option Nat} (h : p.ParentsFirst) :
    p.encloses (some i) b = true ↔ ∃ n, p.around^[n] b = some i := by
  cases b with
  | none => simp [encloses, iterate_around_none]
  | some j => exact liesIn_iff_around h

end FlowSafety.Path
