import FlowSafety.Text.Order

/-!
# Finite sets of texts

A `TextSet` holds finitely many texts in ascending order, each once. The order is part of the value,
so two sets with the same texts are equal.

`mem_insert`, `mem_ofList` and `mem_map` say what the operations do to membership.
-/

namespace FlowSafety

/-- A finite set of texts, in ascending order. -/
structure TextSet where
  toList : List String
  sorted : toList.Pairwise fun s t => Text.before s t
deriving DecidableEq

namespace TextSet

instance : Membership String TextSet := ⟨fun s t => t ∈ s.toList⟩

instance (t : String) (s : TextSet) : Decidable (t ∈ s) :=
  inferInstanceAs (Decidable (t ∈ s.toList))

/-- No text. -/
def empty : TextSet := ⟨[], .nil⟩

instance : Inhabited TextSet := ⟨empty⟩

def size (s : TextSet) : Nat := s.toList.length

def isEmpty (s : TextSet) : Bool := s.toList.isEmpty

/-! ## Insertion -/

/-- Insert a text into an ascending list, unless it is there. -/
def insertSorted (t : String) : List String → List String
  | [] => [t]
  | u :: us =>
    if Text.before t u then t :: u :: us
    else if Text.before u t then u :: insertSorted t us
    else u :: us

theorem mem_insertSorted {t x : String} {us : List String} :
    x ∈ insertSorted t us ↔ x = t ∨ x ∈ us := by
  induction us with
  | nil => simp [insertSorted]
  | cons u us ih =>
    unfold insertSorted
    split
    · simp
    · split
      · simp only [List.mem_cons, ih]
        grind
      · rename_i htu hut
        have heq : t = u := Text.eq_of_not_before (by simpa using htu) (by simpa using hut)
        subst heq
        simp

theorem sorted_insertSorted {t : String} {us : List String}
    (h : us.Pairwise fun s t => Text.before s t) :
    (insertSorted t us).Pairwise fun s t => Text.before s t := by
  induction us with
  | nil => simp [insertSorted]
  | cons u us ih =>
    obtain ⟨hu, hus⟩ := List.pairwise_cons.1 h
    unfold insertSorted
    split
    · refine List.pairwise_cons.2 ⟨fun x hx => ?_, h⟩
      rcases List.mem_cons.1 hx with rfl | hx
      · assumption
      · exact Text.before_trans ‹Text.before t u› (hu x hx)
    · split
      · refine List.pairwise_cons.2 ⟨fun x hx => ?_, ih hus⟩
        rcases mem_insertSorted.1 hx with rfl | hx
        · assumption
        · exact hu x hx
      · exact h

def insert (s : TextSet) (t : String) : TextSet :=
  ⟨insertSorted t s.toList, sorted_insertSorted s.sorted⟩

theorem mem_insert {s : TextSet} {t x : String} : x ∈ s.insert t ↔ x = t ∨ x ∈ s :=
  mem_insertSorted

/-- The set of the texts in a list. -/
def ofList (ts : List String) : TextSet := ts.foldl insert empty

theorem mem_foldl_insert {ts : List String} {s : TextSet} {x : String} :
    x ∈ ts.foldl insert s ↔ x ∈ ts ∨ x ∈ s := by
  induction ts generalizing s with
  | nil => simp
  | cons t ts ih =>
    rw [List.foldl_cons, ih, mem_insert, List.mem_cons]
    grind

theorem mem_ofList {ts : List String} {x : String} : x ∈ ofList ts ↔ x ∈ ts := by
  rw [ofList, mem_foldl_insert]
  exact or_iff_left (List.not_mem_nil)

/-! ## Operations -/

/-- The set of the images of the texts. -/
def map (s : TextSet) (f : String → String) : TextSet := ofList (s.toList.map f)

theorem mem_map {s : TextSet} {f : String → String} {x : String} :
    x ∈ s.map f ↔ ∃ t ∈ s, f t = x := by
  rw [map, mem_ofList, List.mem_map]
  rfl

/-- The texts that satisfy a test. -/
def filter (s : TextSet) (p : String → Bool) : TextSet :=
  ⟨s.toList.filter p, s.sorted.filter p⟩

def inter (s t : TextSet) : TextSet := s.filter (fun x => decide (x ∈ t))

def diff (s t : TextSet) : TextSet := s.filter (fun x => !decide (x ∈ t))

/-- The length of the longest text; zero if there is none. -/
def longest (s : TextSet) : Nat := s.toList.foldl (fun n t => max n t.length) 0

theorem length_le_foldl_max {ts : List String} {t : String} {n : Nat} (h : t ∈ ts ∨ t.length ≤ n) :
    t.length ≤ ts.foldl (fun n t => max n t.length) n := by
  induction ts generalizing n with
  | nil => exact h.resolve_left List.not_mem_nil
  | cons u ts ih =>
    refine ih ?_
    rcases h with h | h
    · rcases List.mem_cons.mp h with rfl | h
      · exact .inr (Nat.le_max_right n t.length)
      · exact .inl h
    · exact .inr (Nat.le_trans h (Nat.le_max_left n u.length))

theorem length_le_longest {s : TextSet} {t : String} (h : t ∈ s) : t.length ≤ s.longest :=
  length_le_foldl_max (.inl h)

end TextSet

end FlowSafety
