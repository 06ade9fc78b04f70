import FlowSafety.Proofs.Pattern.Ascii
import Mathlib.Tactic.Tauto

/-!
# What a search finds

`Core.Takes` says from where to where a match of a pattern goes. The positions that `Core.stops`
answers are those at which a match stops that starts at a given one: a repetition without a bound is
followed until it leads to no new position, and that is soon enough because a match never goes
back.

* `mem_times`, `mem_upTo` — steps taken several times
* `Core.mem_stops` — the positions that a search answers
* `Core.isFoundIn_iff` — when a pattern is found
* `isValid_iff` — the patterns that can be searched for
-/

namespace FlowSafety.Pattern

/-! ## Lists of positions -/

variable {text : Array Char} {i j k n : Nat} {ps qs : List Nat} {r : Nat → Nat → Prop}

theorem mem_merged : j ∈ merged ps qs ↔ j ∈ ps ∨ j ∈ qs := by
  rw [merged, List.mem_append, List.mem_filter]
  simp only [Bool.not_eq_true', List.contains_eq_mem, decide_eq_false_iff_not]
  tauto

theorem mem_distinct : j ∈ distinct ps ↔ j ∈ ps := by
  have h : ∀ seen : List Nat,
      j ∈ ps.foldl (fun seen p => merged seen [p]) seen ↔ j ∈ seen ∨ j ∈ ps := by
    induction ps with
    | nil => simp
    | cons p ps ih =>
      intro seen
      rw [List.foldl_cons, ih, mem_merged, List.mem_singleton, List.mem_cons, or_assoc]
  rw [distinct, h]
  simp

/-! ## Steps -/

theorem Iter.trans {m : Nat} (h : Iter r m i k) (h' : Iter r n k j) : Iter r (m + n) i j := by
  induction m generalizing i with
  | zero =>
    cases h
    rwa [Nat.zero_add]
  | succ m ih =>
    obtain ⟨l, hl, h⟩ := h
    rw [Nat.succ_add]
    exact ⟨l, hl, ih h⟩

theorem Iter.split {m : Nat} (h : Iter r (m + n) i j) : ∃ k, Iter r m i k ∧ Iter r n k j := by
  induction m generalizing i with
  | zero => exact ⟨i, rfl, by rwa [Nat.zero_add] at h⟩
  | succ m ih =>
    rw [Nat.succ_add] at h
    obtain ⟨l, hl, h⟩ := h
    obtain ⟨k, hk, hj⟩ := ih h
    exact ⟨k, ⟨l, hl, hk⟩, hj⟩

theorem Iter.congr {r' : Nat → Nat → Prop} (h : ∀ i j, r i j ↔ r' i j) :
    Iter r n i j ↔ Iter r' n i j := by
  induction n generalizing i with
  | zero => rfl
  | succ n ih => simp only [Iter, h, ih]

/-- A step that goes forward and stays within the text. -/
def Forward (size : Nat) (r : Nat → Nat → Prop) : Prop :=
  ∀ i j, i ≤ size → r i j → i ≤ j ∧ j ≤ size

theorem Forward.iter {size : Nat} (h : Forward size r) : Forward size (Iter r n) := by
  induction n with
  | zero =>
    rintro i j hi rfl
    exact ⟨Nat.le_refl i, hi⟩
  | succ n ih =>
    rintro i j hi ⟨k, hk, hj⟩
    obtain ⟨hik, hks⟩ := h i k hi hk
    obtain ⟨hkj, hjs⟩ := ih k j hks hj
    exact ⟨Nat.le_trans hik hkj, hjs⟩

/-- Steps that stay where they are can be left out, so there need not be more than positions. -/
theorem Iter.short {size : Nat} (hr : Forward size r) (hi : i ≤ size) (h : Iter r n i j) :
    ∃ m ≤ j - i, Iter r m i j := by
  induction n generalizing i with
  | zero =>
    cases h
    exact ⟨0, Nat.zero_le _, rfl⟩
  | succ n ih =>
    obtain ⟨k, hk, h⟩ := h
    obtain ⟨hik, hks⟩ := hr i k hi hk
    obtain ⟨m, hm, hmj⟩ := ih hks h
    have hkj := (hr.iter k j hks h).1
    rcases Nat.eq_or_lt_of_le hik with rfl | hlt
    · exact ⟨m, hm, hmj⟩
    · exact ⟨m + 1, by omega, k, hk, hmj⟩

/-- An operation on positions that takes a step from each. -/
def StepsBy (size : Nat) (r : Nat → Nat → Prop) (step : List Nat → List Nat) : Prop :=
  ∀ ps, (∀ p ∈ ps, p ≤ size) → ∀ j, j ∈ step ps ↔ ∃ i ∈ ps, r i j

section

variable {size : Nat} {step : List Nat → List Nat}

theorem StepsBy.le (hr : Forward size r) (hstep : StepsBy size r step) (hps : ∀ p ∈ ps, p ≤ size) :
    ∀ p ∈ step ps, p ≤ size := by
  intro p hp
  obtain ⟨i, hi, h⟩ := (hstep ps hps p).mp hp
  exact (hr i p (hps i hi) h).2

theorem mem_times (hr : Forward size r) (hstep : StepsBy size r step) (hps : ∀ p ∈ ps, p ≤ size) :
    j ∈ times step n ps ↔ ∃ i ∈ ps, Iter r n i j := by
  induction n generalizing ps with
  | zero => simp [times, Iter]
  | succ n ih =>
    rw [times]
    split
    · rename_i hempty
      rw [List.isEmpty_iff.mp hempty]
      simp
    · rw [ih (hstep.le hr hps)]
      constructor
      · rintro ⟨k, hk, h⟩
        obtain ⟨i, hi, hik⟩ := (hstep ps hps k).mp hk
        exact ⟨i, hi, k, hik, h⟩
      · rintro ⟨i, hi, k, hik, h⟩
        exact ⟨k, (hstep ps hps k).mpr ⟨i, hi, hik⟩, h⟩

/-- From positions that a step does not lead away from, other than to the given ones, the steps stay
there or come by one of those. -/
theorem Iter.leaves {all new : List Nat} (h : ∀ p ∈ all, ∀ q, r p q → q ∈ all ∨ q ∈ new)
    (hi : i ∈ all) (hj : Iter r n i j) : j ∈ all ∨ ∃ m ≤ n, ∃ p ∈ new, Iter r m p j := by
  induction n generalizing i with
  | zero =>
    cases hj
    exact .inl hi
  | succ n ih =>
    obtain ⟨k, hk, hj⟩ := hj
    rcases h i hi k hk with hk | hk
    · rcases ih hk hj with h | ⟨m, hm, p, hp, h⟩
      · exact .inl h
      · exact .inr ⟨m, by omega, p, hp, h⟩
    · exact .inr ⟨n, by omega, k, hk, hj⟩

/-- Positions that are known so far. Those of them that are not fresh have been followed: a step from
there leads to known ones only. -/
structure Frontier (size : Nat) (r : Nat → Nat → Prop) (fresh all : List Nat) : Prop where
  bounded : ∀ p ∈ all, p ≤ size
  known : ∀ p ∈ fresh, p ∈ all
  followed : ∀ p ∈ all, p ∉ fresh → ∀ q, r p q → q ∈ all

namespace Frontier

variable {fresh all new : List Nat}

theorem ofAll (hall : ∀ p ∈ all, p ≤ size) : Frontier size r all all :=
  ⟨hall, fun _ hp => hp, fun _ hp hp' => absurd hp hp'⟩

/-- What a round adds: the positions that a step from the fresh ones leads to for the first time. -/
theorem mem_new (h : Frontier size r fresh all) (hstep : StepsBy size r step) (q : Nat) :
    q ∈ (step fresh).filter (!all.contains ·) ↔ (∃ p ∈ fresh, r p q) ∧ q ∉ all := by
  rw [List.mem_filter, hstep fresh fun p hp => h.bounded p (h.known p hp)]
  simp

section

variable (h : Frontier size r fresh all)
  (hnew : ∀ q, q ∈ new ↔ (∃ p ∈ fresh, r p q) ∧ q ∉ all)

include h hnew

/-- A step leads from what is known to what is known or new. -/
theorem stays : ∀ p ∈ all, ∀ q, r p q → q ∈ all ∨ q ∈ new := by
  intro p hp q hq
  by_cases hq' : q ∈ all
  · exact .inl hq'
  · by_cases hp' : p ∈ fresh
    · exact .inr ((hnew q).mpr ⟨⟨p, hp', hq⟩, hq'⟩)
    · exact absurd (h.followed p hp hp' q hq) hq'

/-- After a round the new positions are the fresh ones. -/
theorem next (hr : Forward size r) : Frontier size r new (all ++ new) where
  bounded p hp := by
    rcases List.mem_append.mp hp with hp | hp
    · exact h.bounded p hp
    · obtain ⟨⟨q, hq, hqp⟩, -⟩ := (hnew p).mp hp
      exact (hr q p (h.bounded q (h.known q hq)) hqp).2
  known p hp := List.mem_append_right _ hp
  followed p hp hp' q hq := by
    rcases List.mem_append.mp hp with hp | hp
    · exact List.mem_append.mpr (h.stays hnew p hp q hq)
    · exact absurd hp hp'

/-- What some steps from the fresh positions reach is known, or one step fewer from the new ones
reaches it. -/
theorem reached_iff :
    (j ∈ all ∨ ∃ m ≤ n + 1, ∃ p ∈ fresh, Iter r m p j) ↔
      j ∈ all ∨ ∃ m ≤ n, ∃ p ∈ new, Iter r m p j := by
  constructor
  · rintro (hj | ⟨m, hm, p, hp, hj⟩)
    · exact .inl hj
    · cases m with
      | zero =>
        cases hj
        exact .inl (h.known j hp)
      | succ m =>
        obtain ⟨k, hk, hj⟩ := hj
        rcases h.stays hnew p (h.known p hp) k hk with hk | hk
        · rcases Iter.leaves (h.stays hnew) hk hj with hj | ⟨l, hl, q, hq, hj⟩
          · exact .inl hj
          · exact .inr ⟨l, by omega, q, hq, hj⟩
        · exact .inr ⟨m, by omega, k, hk, hj⟩
  · rintro (hj | ⟨m, hm, p, hp, hj⟩)
    · exact .inl hj
    · obtain ⟨⟨q, hq, hqp⟩, -⟩ := (hnew p).mp hp
      exact .inr ⟨m + 1, by omega, q, hq, p, hqp, hj⟩

end

end Frontier

theorem mem_upTo {fresh all : List Nat} (hr : Forward size r) (hstep : StepsBy size r step)
    (h : Frontier size r fresh all) :
    j ∈ upTo step n fresh all ↔ j ∈ all ∨ ∃ m ≤ n, ∃ p ∈ fresh, Iter r m p j := by
  induction n generalizing fresh all with
  | zero =>
    rw [upTo]
    constructor
    · exact .inl
    · rintro (hj | ⟨m, hm, p, hp, hj⟩)
      · exact hj
      · obtain rfl := Nat.le_zero.mp hm
        cases hj
        exact h.known j hp
  | succ n ih =>
    have hnew := h.mem_new hstep
    rw [upTo, h.reached_iff hnew]
    generalize (step fresh).filter (!all.contains ·) = new at hnew ⊢
    split
    · rename_i hempty
      rw [List.isEmpty_iff.mp hempty]
      simp
    · rw [ih (h.next hnew hr), List.mem_append]
      constructor
      · rintro ((hj | hj) | hj)
        · exact .inl hj
        · exact .inr ⟨0, Nat.zero_le n, j, hj, rfl⟩
        · exact .inr hj
      · rintro (hj | hj)
        · exact .inl (.inl hj)
        · exact .inr hj

end

/-! ## Patterns -/

mutual

/-- From where to where in a text a match of a pattern goes. -/
def Core.Takes (text : Array Char) : Core → Nat → Nat → Prop
  | .empty, i, j => i = j
  | .literal bytes, i, j => ∃ n, takenBy bytes (text.toList.drop i) = some n ∧ j = i + n
  | .set domain s, i, j => Over text (isMember domain s) i j
  | .look l, i, j => i = j ∧ l.holdsAt text i = true
  | .repetition min max _ sub, i, j =>
    ∃ n, min ≤ n ∧ (∀ m, max = some m → n ≤ Nat.max min m) ∧ Iter (sub.Takes text) n i j
  | .capture _ sub, i, j => sub.Takes text i j
  | .concat items, i, j => TakesAll text items i j
  | .alternation branches, i, j => TakesOne text branches i j

/-- Matches of some patterns in a row. -/
def TakesAll (text : Array Char) : List Core → Nat → Nat → Prop
  | [], i, j => i = j
  | item :: items, i, j => ∃ k, item.Takes text i k ∧ TakesAll text items k j

/-- A match of one of some patterns. -/
def TakesOne (text : Array Char) : List Core → Nat → Nat → Prop
  | [], _, _ => False
  | branch :: branches, i, j => branch.Takes text i j ∨ TakesOne text branches i j

end

theorem le_length_of_takenBy {bytes : List UInt8} {cs : List Char} (h : takenBy bytes cs = some n) :
    n ≤ cs.length := by
  induction cs generalizing bytes n with
  | nil =>
    cases bytes with
    | nil =>
      rw [takenBy] at h
      cases h
      exact Nat.le_refl 0
    | cons b bytes =>
      rw [takenBy] at h
      · contradiction
      · simp
  | cons c cs ih =>
    cases bytes with
    | nil =>
      rw [takenBy] at h
      cases h
      exact Nat.zero_le _
    | cons b bytes =>
      rw [takenBy] at h
      split at h
      · obtain ⟨m, hm, rfl⟩ := Option.map_eq_some_iff.mp h
        exact Nat.succ_le_succ (ih hm)
      · contradiction

theorem Over.forward {p : Char → Bool} : Forward text.size (Over text p) := by
  rintro i j - ⟨c, hc, -, rfl⟩
  obtain ⟨hlt, -⟩ := Array.getElem?_eq_some_iff.mp hc
  exact ⟨Nat.le_succ i, hlt⟩

mutual

/-- A match never goes back, and stays within the text. -/
theorem Core.takes_forward (text : Array Char) : ∀ h : Core, Forward text.size (h.Takes text)
  | .empty => by
    rintro i j hi rfl
    exact ⟨Nat.le_refl i, hi⟩
  | .literal bytes => by
    rintro i j hi ⟨n, hn, rfl⟩
    have := le_length_of_takenBy hn
    rw [List.length_drop, Array.length_toList] at this
    omega
  | .set domain s => Over.forward
  | .look l => by
    rintro i j hi ⟨rfl, -⟩
    exact ⟨Nat.le_refl i, hi⟩
  | .repetition min max _ sub => by
    rintro i j hi ⟨n, -, -, h⟩
    exact (Core.takes_forward text sub).iter i j hi h
  | .capture _ sub => Core.takes_forward text sub
  | .concat items => takesAll_forward text items
  | .alternation branches => takesOne_forward text branches

theorem takesAll_forward (text : Array Char) : ∀ items : List Core,
    Forward text.size (TakesAll text items)
  | [] => by
    rintro i j hi rfl
    exact ⟨Nat.le_refl i, hi⟩
  | item :: items => by
    rintro i j hi ⟨k, hk, hj⟩
    obtain ⟨hik, hks⟩ := Core.takes_forward text item i k hi hk
    obtain ⟨hkj, hjs⟩ := takesAll_forward text items k j hks hj
    exact ⟨Nat.le_trans hik hkj, hjs⟩

theorem takesOne_forward (text : Array Char) : ∀ branches : List Core,
    Forward text.size (TakesOne text branches)
  | [] => fun _ _ _ h => h.elim
  | branch :: branches => by
    rintro i j hi (h | h)
    · exact Core.takes_forward text branch i j hi h
    · exact takesOne_forward text branches i j hi h

end

/-- A repetition is followed as far as it leads. -/
theorem stepsBy_repetition {min : Nat} {max : Option Nat} {step : List Nat → List Nat}
    (hr : Forward text.size r) (hstep : StepsBy text.size r step) :
    StepsBy text.size
      (fun i j => ∃ n, min ≤ n ∧ (∀ m, max = some m → n ≤ Nat.max min m) ∧ Iter r n i j)
      fun ps =>
        let least := times step min ps
        let more := match max with
          | some m => m - min
          | none => text.size + 1
        upTo step more least least := by
  intro ps hps j
  have hleast : ∀ p, p ∈ times step min ps ↔ ∃ i ∈ ps, Iter r min i p :=
    fun p => mem_times hr hstep hps
  have hbound : ∀ p ∈ times step min ps, p ≤ text.size := by
    intro p hp
    obtain ⟨i, hi, h⟩ := (hleast p).mp hp
    exact (hr.iter i p (hps i hi) h).2
  simp only
  rw [mem_upTo hr hstep (.ofAll hbound)]
  constructor
  · rintro (h | ⟨n, hn, p, hp, h⟩)
    · obtain ⟨i, hi, h⟩ := (hleast j).mp h
      exact ⟨i, hi, min, Nat.le_refl min, fun m _ => Nat.le_max_left min m, h⟩
    · obtain ⟨i, hi, hip⟩ := (hleast p).mp hp
      refine ⟨i, hi, min + n, Nat.le_add_right min n, ?_, hip.trans h⟩
      rintro m rfl
      simp only at hn
      have : m ≤ Nat.max min m := Nat.le_max_right min m
      have : min ≤ Nat.max min m := Nat.le_max_left min m
      omega
  · rintro ⟨i, hi, n, hmin, hmax, h⟩
    obtain ⟨n, rfl⟩ := Nat.exists_eq_add_of_le hmin
    obtain ⟨k, hk, h⟩ := h.split
    have hkleast : k ∈ times step min ps := (hleast k).mpr ⟨i, hi, hk⟩
    right
    cases max with
    | some m =>
      have : min + n ≤ Nat.max min m := hmax m rfl
      refine ⟨n, ?_, k, hkleast, h⟩
      simp only
      rcases Nat.le_total min m with hle | hle
      · rw [show Nat.max min m = m from Nat.max_eq_right hle] at this
        omega
      · rw [show Nat.max min m = min from Nat.max_eq_left hle] at this
        omega
    | none =>
      have hks := hbound k hkleast
      obtain ⟨m, hm, h'⟩ := h.short hr hks
      have := (hr.iter k j hks h).2
      exact ⟨m, by simp only; omega, k, hkleast, h'⟩

mutual

/-- A search from some positions answers where matches stop that start there. -/
theorem Core.mem_stops (text : Array Char) : ∀ h : Core,
    StepsBy text.size (h.Takes text) (h.stops text)
  | .empty => by
    intro ps _ j
    simp [Core.stops, Core.Takes]
  | .literal bytes => by
    intro ps _ j
    simp only [Core.stops, Core.Takes, List.mem_filterMap, Option.map_eq_some_iff]
    constructor
    · rintro ⟨i, hi, n, hn, rfl⟩
      exact ⟨i, hi, n, hn, rfl⟩
    · rintro ⟨i, hi, n, hn, rfl⟩
      exact ⟨i, hi, n, hn, rfl⟩
  | .set domain s => by
    intro ps _ j
    simp only [Core.stops, Core.Takes, Over, List.mem_filterMap, Option.bind_eq_some_iff,
      Option.ite_none_right_eq_some, Option.some.injEq]
    constructor
    · rintro ⟨i, hi, c, hc, hmem, rfl⟩
      exact ⟨i, hi, c, hc, hmem, rfl⟩
    · rintro ⟨i, hi, c, hc, hmem, rfl⟩
      exact ⟨i, hi, c, hc, hmem, rfl⟩
  | .look l => by
    intro ps _ j
    simp only [Core.stops, Core.Takes, List.mem_filter]
    constructor
    · rintro ⟨hj, h⟩
      exact ⟨j, hj, rfl, h⟩
    · rintro ⟨i, hi, rfl, h⟩
      exact ⟨hi, h⟩
  | .repetition min max _ sub =>
    stepsBy_repetition (Core.takes_forward text sub) (Core.mem_stops text sub)
  | .capture _ sub => Core.mem_stops text sub
  | .concat items => mem_stopsOfRow text items
  | .alternation branches => mem_stopsOfAny text branches

theorem mem_stopsOfRow (text : Array Char) : ∀ items : List Core,
    StepsBy text.size (TakesAll text items) (stopsOfRow text items)
  | [] => by
    intro ps _ j
    simp [stopsOfRow, TakesAll]
  | item :: items => by
    intro ps hps j
    have hitem := Core.mem_stops text item ps hps
    have hbound : ∀ p ∈ distinct (item.stops text ps), p ≤ text.size := fun p hp =>
      (Core.mem_stops text item).le (Core.takes_forward text item) hps p (mem_distinct.mp hp)
    rw [stopsOfRow, mem_stopsOfRow text items _ hbound]
    simp only [mem_distinct, hitem, TakesAll]
    constructor
    · rintro ⟨k, ⟨i, hi, hk⟩, h⟩
      exact ⟨i, hi, k, hk, h⟩
    · rintro ⟨i, hi, k, hk, h⟩
      exact ⟨k, ⟨i, hi, hk⟩, h⟩

theorem mem_stopsOfAny (text : Array Char) : ∀ branches : List Core,
    StepsBy text.size (TakesOne text branches) (stopsOfAny text branches)
  | [] => by
    intro ps _ j
    simp [stopsOfAny, TakesOne]
  | branch :: branches => by
    intro ps hps j
    rw [stopsOfAny, mem_merged, mem_distinct, Core.mem_stops text branch ps hps,
      mem_stopsOfAny text branches ps hps]
    simp only [TakesOne]
    constructor
    · rintro (⟨i, hi, h⟩ | ⟨i, hi, h⟩)
      · exact ⟨i, hi, .inl h⟩
      · exact ⟨i, hi, .inr h⟩
    · rintro ⟨i, hi, h | h⟩
      · exact .inl ⟨i, hi, h⟩
      · exact .inr ⟨i, hi, h⟩

end

/-- A pattern is found in a text if some match starts there. -/
theorem Core.isFoundIn_iff {h : Core} {v : String} :
    h.isFoundIn v = true ↔
      ∃ i ≤ v.toList.toArray.size, ∃ j, h.Takes v.toList.toArray i j := by
  have hrange : ∀ p ∈ List.range (v.toList.toArray.size + 1), p ≤ v.toList.toArray.size :=
    fun p hp => Nat.lt_succ_iff.mp (List.mem_range.mp hp)
  have hstops := fun j => Core.mem_stops v.toList.toArray h _ hrange j
  rw [Core.isFoundIn]
  simp only [Bool.not_eq_true', List.isEmpty_eq_false_iff_exists_mem, hstops, List.mem_range,
    Nat.lt_succ_iff]
  constructor
  · rintro ⟨j, i, hi, h⟩
    exact ⟨i, hi, j, h⟩
  · rintro ⟨i, hi, j, h⟩
    exact ⟨j, i, hi, h⟩

/-! ## Patterns that can be searched for -/

theorem searcher_eq_some_iff {pattern : String} {h : Core} :
    searcher? pattern = some h ↔
      ∃ ast, parse? pattern = some ast ∧ meaning? .unicode ast = some h ∧ h.fits = true := by
  simp only [searcher?, Option.bind_eq_some_iff, Option.ite_none_right_eq_some]
  constructor
  · rintro ⟨ast, hread, h', hmeaning, hfits, heq⟩
    cases heq
    exact ⟨ast, hread, hmeaning, hfits⟩
  · rintro ⟨ast, hread, hmeaning, hfits⟩
    exact ⟨ast, hread, h, hmeaning, hfits, rfl⟩

/-- Whether a text can be searched for a pattern: it is read, means something in Unicode, and does
not take too much memory. -/
theorem isValid_iff {pattern : String} :
    isValid pattern = true ↔
      ∃ ast h, parse? pattern = some ast ∧ meaning? .unicode ast = some h ∧ h.fits = true := by
  simp only [isValid, Option.isSome_iff_exists, searcher_eq_some_iff]
  exact exists_comm

end FlowSafety.Pattern
