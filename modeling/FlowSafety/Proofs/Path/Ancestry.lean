import FlowSafety.Proofs.Path.Nesting
import FlowSafety.Proofs.Path.Validation
import Mathlib.Logic.Relation

/-!
# Ancestors of branches

The parents in the table of a valid path make a forest. A branch encloses itself and what it is an
ancestor of, so the branches that enclose a common one are in a line.

The search for what encloses a branch goes up the parents until it finds it or there are no more. On
a table whose parents go round in a circle it need not end; `Path.climb` is that search on any
table, counted in rounds.

* `climb_eq_encloses` — where parents come first, it ends within as many rounds as there are
  branches, and one
* `climb_of_own_parent` — where a branch is its own parent, it may never end
* `encloses_iff_ancestor` — what encloses a branch is the branch itself or an ancestor of it
* `encloses_antisymm`, `encloses_of_common` — enclosing is an order, and what encloses a common
  branch is comparable
-/

namespace FlowSafety.Path

variable {p : Path} {outer rounds i j : Nat} {a b c : Option Nat}

theorem parentsFirst_of_validate (hp : p.validate = .ok ()) : p.ParentsFirst :=
  fun _ _ _ hb hparent => parent_lt_of_validate hp hb hparent

/-! ## The search -/

/-- The search for a branch among another one and those around it: its answer, if it has one after
so many rounds. -/
def climb (p : Path) (outer : Nat) : Nat → Option Nat → Option Bool
  | _, none => some false
  | 0, some _ => none
  | rounds + 1, some i => if i = outer then some true else p.climb outer rounds (p.around (some i))

/-- Whether code in the inner branch also runs inside the outer one, if the search for the outer one
has an answer after so many rounds. -/
def enclosesWithin (p : Path) (rounds : Nat) : Option Nat → Option Nat → Option Bool
  | none, _ => some true
  | some outer, inner => p.climb outer rounds inner

theorem climb_none (p : Path) (outer rounds : Nat) : p.climb outer rounds none = some false := by
  cases rounds <;> rfl

/-- What encloses a branch other than itself encloses the branch around it. -/
theorem encloses_around (h : p.ParentsFirst) (hne : i ≠ outer) :
    p.encloses (some outer) (some i) = p.encloses (some outer) (p.around (some i)) := by
  rw [Bool.eq_iff_iff, encloses_iff_around h, encloses_iff_around h]
  exact exists_iterate_around fun he => hne (Option.some.inj he)

theorem climb_of_lt (h : p.ParentsFirst) (hi : i < rounds) :
    p.climb outer rounds (some i) = some (p.encloses (some outer) (some i)) := by
  induction rounds generalizing i with
  | zero => omega
  | succ rounds ih =>
    unfold climb
    split
    · next heq => rw [heq, encloses_refl]
    · next hne =>
      rw [encloses_around h hne]
      cases hparent : p.around (some i) with
      | none => exact climb_none p outer rounds
      | some k =>
        have hlt := around_lt h hparent
        exact ih (by omega)

theorem around_of_unknown (hi : p.branches.length ≤ i) : p.around (some i) = none := by
  simp [around, hi]

/-- Where every branch comes after the one around it, the search ends with the right answer, also
from a branch that is not in the table. -/
theorem climb_eq_encloses (h : p.ParentsFirst) (hrounds : p.branches.length < rounds)
    (inner : Option Nat) : p.climb outer rounds inner = some (p.encloses (some outer) inner) := by
  cases inner with
  | none => exact climb_none p outer rounds
  | some i =>
    by_cases hi : i < rounds
    · exact climb_of_lt h hi
    · cases rounds with
      | zero => omega
      | succ rounds =>
        unfold climb
        split
        · next heq => rw [heq, encloses_refl]
        · next hne =>
          rw [encloses_around h hne, around_of_unknown (by omega)]
          exact climb_none p outer rounds

/-- From a branch that is its own parent the search for another one has no answer, however many
rounds it takes. -/
theorem climb_of_own_parent (hparent : p.around (some i) = some i) (hne : i ≠ outer)
    (rounds : Nat) : p.climb outer rounds (some i) = none := by
  induction rounds with
  | zero => rfl
  | succ rounds ih => rw [climb, if_neg hne, hparent, ih]

/-! ## Ancestors -/

/-- The table has one branch as the parent of another. -/
def IsParent (p : Path) (parent i : Nat) : Prop :=
  ∃ b, p.branches[i]? = some b ∧ b.parent = some parent

theorem around_eq_some_iff : p.around (some j) = some i ↔ p.IsParent i j := by
  show p.branches[j]?.bind (·.parent) = some i ↔ p.IsParent i j
  exact Option.bind_eq_some_iff

theorem iterate_around_iff_ancestor :
    (∃ n, p.around^[n] (some j) = some i) ↔ i = j ∨ Relation.TransGen p.IsParent i j := by
  constructor
  · rintro ⟨n, hn⟩
    induction n generalizing j with
    | zero => exact Or.inl (Option.some.inj hn).symm
    | succ n ih =>
      rw [Function.iterate_succ_apply] at hn
      cases hparent : p.around (some j) with
      | none =>
        rw [hparent, iterate_around_none] at hn
        contradiction
      | some k =>
        rw [hparent] at hn
        have hkj := around_eq_some_iff.mp hparent
        rcases ih hn with rfl | hik
        · exact Or.inr (.single hkj)
        · exact Or.inr (hik.tail hkj)
  · rintro (rfl | hancestor)
    · exact ⟨0, rfl⟩
    · induction hancestor with
      | single hparent => exact ⟨1, around_eq_some_iff.mpr hparent⟩
      | tail _ hparent ih =>
        obtain ⟨n, hn⟩ := ih
        refine ⟨n + 1, ?_⟩
        rw [Function.iterate_succ_apply, around_eq_some_iff.mpr hparent]
        exact hn

/-- A branch encloses itself and what it is an ancestor of. -/
theorem encloses_iff_ancestor (h : p.ParentsFirst) :
    p.encloses (some i) (some j) = true ↔ i = j ∨ Relation.TransGen p.IsParent i j := by
  rw [encloses_iff_around h, iterate_around_iff_ancestor]

theorem lt_of_ancestor (h : p.ParentsFirst) (hij : Relation.TransGen p.IsParent i j) : i < j := by
  induction hij with
  | single hparent => exact around_lt h (around_eq_some_iff.mpr hparent)
  | tail _ hparent ih =>
    have hlt := around_lt h (around_eq_some_iff.mpr hparent)
    omega

/-! ## Order -/

theorem not_encloses_outside (p : Path) (i : Nat) : p.encloses (some i) none = false := rfl

/-- What encloses a branch comes before it in the table. -/
theorem le_of_encloses (h : p.ParentsFirst) (hij : p.encloses (some i) (some j) = true) :
    i ≤ j := by
  rcases (encloses_iff_ancestor h).mp hij with rfl | hancestor
  · exact Nat.le_refl i
  · exact Nat.le_of_lt (lt_of_ancestor h hancestor)

theorem encloses_antisymm (h : p.ParentsFirst) (hab : p.encloses a b = true)
    (hba : p.encloses b a = true) : a = b := by
  cases a with
  | none =>
    cases b with
    | none => rfl
    | some j => rw [not_encloses_outside] at hba; contradiction
  | some i =>
    cases b with
    | none => rw [not_encloses_outside] at hab; contradiction
    | some j => rw [Nat.le_antisymm (le_of_encloses h hab) (le_of_encloses h hba)]

/-- Of two branches on the way up from a third one, the one that the way comes by first lies in the
other. -/
theorem encloses_of_le {m n : Nat} (h : p.ParentsFirst) (hi : p.around^[m] c = some i)
    (hj : p.around^[n] c = some j) (hmn : m ≤ n) : p.encloses (some j) (some i) = true := by
  rw [encloses_iff_around h]
  refine ⟨n - m, ?_⟩
  rw [← hi, ← Function.iterate_add_apply, Nat.sub_add_cancel hmn]
  exact hj

/-- Of two branches that enclose a common one, one encloses the other. -/
theorem encloses_of_common (h : p.ParentsFirst) (hac : p.encloses a c = true)
    (hbc : p.encloses b c = true) : p.encloses a b = true ∨ p.encloses b a = true := by
  cases a with
  | none => exact Or.inl rfl
  | some i =>
    cases b with
    | none => exact Or.inr rfl
    | some j =>
      obtain ⟨m, hi⟩ := (encloses_iff_around h).mp hac
      obtain ⟨n, hj⟩ := (encloses_iff_around h).mp hbc
      rcases Nat.le_total m n with hmn | hnm
      · exact Or.inr (encloses_of_le h hi hj hmn)
      · exact Or.inl (encloses_of_le h hj hi hnm)

/-! ## Valid paths -/

/-- On a valid path the search up the parents always ends, whatever it is for and wherever it
starts, with the answer that `encloses` gives. A branch encloses another exactly if it is that
branch or an ancestor of it; enclosing is an order in which whatever encloses a common branch is
comparable, and the outside of all branches encloses everything and lies in no branch. -/
theorem encloses_of_validate (hp : p.validate = .ok ()) :
    (∀ (outer inner : Option Nat) (rounds : Nat), p.branches.length < rounds →
      p.enclosesWithin rounds outer inner = some (p.encloses outer inner)) ∧
    (∀ i j, p.encloses (some i) (some j) = true ↔ i = j ∨ Relation.TransGen p.IsParent i j) ∧
    (∀ a, p.encloses a a = true) ∧
    (∀ a b c, p.encloses a b = true → p.encloses b c = true → p.encloses a c = true) ∧
    (∀ a b, p.encloses a b = true → p.encloses b a = true → a = b) ∧
    (∀ a b c, p.encloses a c = true → p.encloses b c = true →
      p.encloses a b = true ∨ p.encloses b a = true) ∧
    (∀ b, p.encloses none b = true) ∧ ∀ i, p.encloses (some i) none = false := by
  have hparents := parentsFirst_of_validate hp
  refine ⟨?_, fun _ _ => encloses_iff_ancestor hparents, encloses_refl p,
    fun _ _ _ => encloses_trans, fun _ _ => encloses_antisymm hparents,
    fun _ _ _ => encloses_of_common hparents, fun _ => rfl, not_encloses_outside p⟩
  intro outer inner rounds hrounds
  cases outer with
  | none => rfl
  | some outer => exact climb_eq_encloses hparents hrounds inner

/-- Two checks of a count side by side, the second one with a check of its own inside. -/
def branchedCount : Path :=
  { version := pathVersion
    branches :=
      [{ parent := none, condition := .compare .lt 100, outcome := .passed },
        { parent := none, condition := .compare .ge 100, outcome := .failed },
        { parent := some 1, condition := .compare .gt 10, outcome := .failed }]
    steps :=
      [⟨.source (.ofInteger "count" .i32), none⟩, ⟨.guard 0, some 0⟩, ⟨.guard 1, some 1⟩,
        ⟨.guard 2, some 2⟩, ⟨.sink .loopBound, some 2⟩] }

theorem encloses_branchedCount :
    branchedCount.validate = .ok () ∧
      branchedCount.enclosesWithin 4 (some 1) (some 2) = some true ∧
      branchedCount.enclosesWithin 4 (some 0) (some 2) = some false ∧
      branchedCount.enclosesWithin 4 (some 7) (some 9) = some false ∧
      Relation.TransGen branchedCount.IsParent 1 2 := by
  obtain ⟨hends, hancestor, -⟩ := encloses_of_validate (p := branchedCount) rfl
  have hinner : branchedCount.encloses (some 1) (some 2) = true := by decide +kernel
  have hbeside : branchedCount.encloses (some 0) (some 2) = false := by decide +kernel
  have hunknown : branchedCount.encloses (some 7) (some 9) = false := by decide +kernel
  refine ⟨rfl, ?_, ?_, ?_, ((hancestor 1 2).mp hinner).resolve_left (by decide)⟩
  · rw [hends _ _ 4 (by decide), hinner]
  · rw [hends _ _ 4 (by decide), hbeside]
  · rw [hends _ _ 4 (by decide), hunknown]

end FlowSafety.Path
