import FlowSafety.Proofs.Interval.Monotone

/-!
# The lattice of canonical intervals

Different pairs of ends can stand for the same integers: every inverted pair stands for none. Among
canonical intervals there is one for each set of members, and every operation answers with a
canonical one. Ordered by their members they form a lattice, in which `join` and `meet` are the
least interval around two and their common part.

The members are all integers, not only those of 64 bits: these cannot tell an interval that ends at
the greatest of them from one without an upper end.

* `mem_meet_iff` — the common members, unless an end has saturated
* `join_subset_iff` — the join is the least interval around both operands
* `Canonical` — canonical intervals as a lattice
* `canonical_kept_and_lattice` — every operation keeps the form, and the laws of a lattice hold
-/

namespace FlowSafety.Interval

variable {a b c : Interval} {z : Int}

/-! ## Members of canonical intervals -/

/-- Canonical intervals are told apart by their members. -/
theorem subset_antisymm (ha : a.IsCanonical) (hb : b.IsCanonical) (hab : a ⊆ b) (hba : b ⊆ a) :
    a = b := by
  cases hempty : a.isEmpty with
  | true =>
    cases hempty' : b.isEmpty with
    | true => rw [ha.eq_empty hempty, hb.eq_empty hempty']
    | false =>
      have hinside := inside_of_subset hb hempty' hba
      rw [hinside.isEmpty_right] at hempty
      contradiction
  | false =>
    have hinside := inside_of_subset ha hempty hab
    have hinside' := inside_of_subset hb hinside.isEmpty_right hba
    obtain ⟨low, high⟩ := a
    obtain ⟨low', high'⟩ := b
    have hlow : low = low' := hinside'.low.antisymm hinside.low
    have hhigh : high = high' := hinside.high.antisymm hinside'.high
    rw [hlow, hhigh]

/-- No end has saturated to the infinity of the other one, unless the interval is inverted. -/
def IsUnsaturated (a : Interval) : Prop :=
  a.isEmpty = true ∨ (a.low ≠ .posInf ∧ a.high ≠ .negInf)

theorem IsCanonical.isUnsaturated (ha : a.IsCanonical) : a.IsUnsaturated := by
  rcases isCanonical_iff.mp ha with rfl | h
  · exact Or.inl rfl
  · exact Or.inr ⟨h.low_ne, h.high_ne⟩

/-- The members of an intersection are the common ones. An end at the wrong infinity would be pulled
back to a member that only one operand has. -/
theorem mem_meet_iff (ha : a.IsUnsaturated) (hb : b.IsUnsaturated) :
    z ∈ a.meet b ↔ z ∈ a ∧ z ∈ b := by
  refine ⟨fun h => ?_, fun h => mem_meet h.1 h.2⟩
  unfold meet at h
  split at h
  · exact absurd h not_mem_empty
  · next hne =>
    rw [Bool.or_eq_true, not_or] at hne
    obtain ⟨hlow, hhigh⟩ := ha.resolve_left hne.1
    obtain ⟨hlow', hhigh'⟩ := hb.resolve_left hne.2
    rcases lt_or_ge (min a.high b.high) (max a.low b.low) with hlt | hle
    · rw [ofBounds_of_lt hlt] at h
      exact absurd h not_mem_empty
    · -- the ends are those of the operands, so they bound the members on both sides
      rw [ofBounds_of_le hle, Bound.asLow_eq (Bound.max_ne hlow hlow'),
        Bound.asHigh_eq (Bound.min_ne hhigh hhigh')] at h
      exact ⟨⟨h.1.of_le (le_max_left _ _), h.2.of_le (min_le_left _ _)⟩,
        ⟨h.1.of_le (le_max_right _ _), h.2.of_le (min_le_right _ _)⟩⟩

/-- An interval around two others lies around their hull. -/
theorem join_subset_iff (ha : a.IsCanonical) (hb : b.IsCanonical) :
    a.join b ⊆ c ↔ a ⊆ c ∧ b ⊆ c := by
  refine ⟨fun h => ⟨fun z hz => h z (mem_join_left hz), fun z hz => h z (mem_join_right hz)⟩, ?_⟩
  rintro ⟨hac, hbc⟩
  unfold join
  split
  · exact hbc
  · next hne =>
    split
    · exact hac
    · next hne' =>
      -- neither operand is empty, so their ends lie between those of the interval around them
      have hA := inside_of_subset ha (Bool.not_eq_true _ ▸ hne) hac
      have hB := inside_of_subset hb (Bool.not_eq_true _ ▸ hne') hbc
      exact subset_of_ends (le_min hA.low hB.low) (max_le hA.high hB.high)

/-! ## The lattice -/

/-- An interval that is written canonically. -/
@[ext] structure Canonical where
  interval : Interval
  isCanonical : interval.IsCanonical

namespace Canonical

instance : PartialOrder Canonical where
  le a b := a.interval ⊆ b.interval
  le_refl a := subset_refl a.interval
  le_trans _ _ _ := subset_trans
  le_antisymm a b hab hba := Canonical.ext (subset_antisymm a.isCanonical b.isCanonical hab hba)

instance : Lattice Canonical where
  sup a b := ⟨a.interval.join b.interval, isCanonical_join a.isCanonical b.isCanonical⟩
  inf a b := ⟨a.interval.meet b.interval, isCanonical_meet a.interval b.interval⟩
  le_sup_left _ _ _ := mem_join_left
  le_sup_right _ _ _ := mem_join_right
  sup_le a b _ hac hbc := (join_subset_iff a.isCanonical b.isCanonical).mpr ⟨hac, hbc⟩
  inf_le_left a b _ h :=
    ((mem_meet_iff a.isCanonical.isUnsaturated b.isCanonical.isUnsaturated).mp h).1
  inf_le_right a b _ h :=
    ((mem_meet_iff a.isCanonical.isUnsaturated b.isCanonical.isUnsaturated).mp h).2
  le_inf _ _ _ hab hac z h := mem_meet (hab z h) (hac z h)

end Canonical

/-- Join and meet make a lattice of the intervals of some form, ordered by their members. -/
structure IsLattice (Form : Interval → Prop) : Prop where
  ext : ∀ {a b}, Form a → Form b → (∀ z : Int, z ∈ a ↔ z ∈ b) → a = b
  mem_meet : ∀ {a b}, Form a → Form b → ∀ z : Int, z ∈ a.meet b ↔ z ∈ a ∧ z ∈ b
  join_around : ∀ {a b}, Form a → Form b → a ⊆ a.join b ∧ b ⊆ a.join b
  join_least : ∀ {a b c}, Form a → Form b → Form c → a ⊆ c → b ⊆ c → a.join b ⊆ c
  join_comm : ∀ {a b}, Form a → Form b → a.join b = b.join a
  meet_comm : ∀ {a b}, Form a → Form b → a.meet b = b.meet a
  join_assoc : ∀ {a b c}, Form a → Form b → Form c →
    (a.join b).join c = a.join (b.join c)
  meet_assoc : ∀ {a b c}, Form a → Form b → Form c →
    (a.meet b).meet c = a.meet (b.meet c)
  join_self : ∀ {a}, Form a → a.join a = a
  meet_self : ∀ {a}, Form a → a.meet a = a
  join_meet_self : ∀ {a b}, Form a → Form b → a.join (a.meet b) = a
  meet_join_self : ∀ {a b}, Form a → Form b → a.meet (a.join b) = a

theorem isLattice_isCanonical : IsLattice IsCanonical where
  ext ha hb h := subset_antisymm ha hb (fun z => (h z).mp) fun z => (h z).mpr
  mem_meet ha hb _ := mem_meet_iff ha.isUnsaturated hb.isUnsaturated
  join_around ha hb := (join_subset_iff ha hb).mp (subset_refl _)
  join_least ha hb _ hac hbc := (join_subset_iff ha hb).mpr ⟨hac, hbc⟩
  join_comm ha hb := congrArg Canonical.interval (sup_comm (⟨_, ha⟩ : Canonical) ⟨_, hb⟩)
  meet_comm ha hb := congrArg Canonical.interval (inf_comm (⟨_, ha⟩ : Canonical) ⟨_, hb⟩)
  join_assoc ha hb hc :=
    congrArg Canonical.interval (sup_assoc (⟨_, ha⟩ : Canonical) ⟨_, hb⟩ ⟨_, hc⟩)
  meet_assoc ha hb hc :=
    congrArg Canonical.interval (inf_assoc (⟨_, ha⟩ : Canonical) ⟨_, hb⟩ ⟨_, hc⟩)
  join_self ha := congrArg Canonical.interval (sup_idem (⟨_, ha⟩ : Canonical))
  meet_self ha := congrArg Canonical.interval (inf_idem (⟨_, ha⟩ : Canonical))
  join_meet_self ha hb :=
    congrArg Canonical.interval (sup_inf_self (a := (⟨_, ha⟩ : Canonical)) (b := ⟨_, hb⟩))
  meet_join_self ha hb :=
    congrArg Canonical.interval (inf_sup_self (a := (⟨_, ha⟩ : Canonical)) (b := ⟨_, hb⟩))

/-! ## Operations -/

/-- Every operation on intervals answers with an interval of the form. -/
structure IsKeptByOperations (Form : Interval → Prop) : Prop where
  ofBounds (low high : Bound) : Form (ofBounds low high)
  range (low high : Int64) : Form (range low high)
  atLeast (low : Int64) : Form (atLeast low)
  atMost (high : Int64) : Form (atMost high)
  unary : ∀ F ∈ [neg, abs, iterations], ∀ a, Form a → Form (F a)
  binary : ∀ F ∈ [join, meet, add, sub, mul, div, rem, bitAnd, shiftRight, minimum, maximum],
    ∀ a b, Form a → Form b → Form (F a b)
  clamp : ∀ a lo hi, Form a → Form lo → Form hi → Form (a.clamp lo hi)

theorem isCanonical_iterations (a : Interval) : a.iterations.IsCanonical := by
  unfold iterations
  split
  · exact isCanonical_empty
  · exact isCanonical_guarded (isCanonical_ofBounds _ _)

theorem isKeptByOperations_isCanonical : IsKeptByOperations IsCanonical where
  ofBounds := isCanonical_ofBounds
  range _ _ := isCanonical_ofBounds _ _
  atLeast _ := isCanonical_ofBounds _ _
  atMost _ := isCanonical_ofBounds _ _
  unary F hF a ha := by
    simp only [List.mem_cons, List.not_mem_nil, or_false] at hF
    rcases hF with rfl | rfl | rfl
    · exact isCanonical_neg a
    · exact isCanonical_abs ha
    · exact isCanonical_iterations a
  binary F hF a b ha hb := by
    simp only [List.mem_cons, List.not_mem_nil, or_false] at hF
    rcases hF with rfl | rfl | rfl | rfl | rfl | rfl | rfl | rfl | rfl | rfl | rfl
    · exact isCanonical_join ha hb
    · exact isCanonical_meet a b
    · exact isCanonical_guarded (isCanonical_ofBounds _ _)
    · exact isCanonical_guarded (isCanonical_ofBounds _ _)
    · exact isCanonical_guarded (isCanonical_hull _)
    · exact isCanonical_div a b
    · exact isCanonical_rem a b
    · exact isCanonical_bitAnd a b
    · exact isCanonical_shiftRight a b
    · exact isCanonical_guarded (isCanonical_ofBounds _ _)
    · exact isCanonical_guarded (isCanonical_ofBounds _ _)
  clamp _ _ _ _ _ _ := isCanonical_guarded (isCanonical_ofBounds _ _)

/-- Canonical are the empty interval and those with proper ends. Every operation answers with one of
them, and under `join` and `meet` they are a lattice in which the members tell two apart. -/
theorem canonical_kept_and_lattice :
    (∀ a : Interval, a.IsCanonical ↔ a = empty ∨ a.IsProper) ∧ IsKeptByOperations IsCanonical ∧
      IsLattice IsCanonical :=
  ⟨fun _ => isCanonical_iff, isKeptByOperations_isCanonical, isLattice_isCanonical⟩

/-- A sum whose lower end saturates is pulled back to a canonical interval, which obeys the laws. -/
theorem canonical_saturatedSum :
    ((atLeast Int64.maxValue).add (constant 1)).IsCanonical ∧
      (range 0 5).join ((range 0 5).meet ((atLeast Int64.maxValue).add (constant 1))) =
        range 0 5 := by
  obtain ⟨-, hkept, hlattice⟩ := canonical_kept_and_lattice
  have hsum : ((atLeast Int64.maxValue).add (constant 1)).IsCanonical :=
    hkept.binary add (by simp) _ _ (hkept.atLeast _) (isCanonical_constant 1)
  exact ⟨hsum, hlattice.join_meet_self (hkept.range 0 5) hsum⟩

end FlowSafety.Interval
