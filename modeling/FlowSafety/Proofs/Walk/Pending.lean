import FlowSafety.Proofs.Interval.Bound
import FlowSafety.Proofs.Text.Joining
import FlowSafety.Proofs.Walk.Summary

/-!
# Pending names fail closed

As long as the effect of an unrecognized name is pending on a level, nothing is known there that a
verdict could rest on: the value is a text without a guarantee, or an integer without a finite upper
bound. The check of loop bounds relies on this, since it never looks at what is pending.

* `Level.FailsClosed` — the invariant of a level
* `Walk.Reached.failsClosed` — every level of every walk satisfies it
-/

namespace FlowSafety

/-! ## Open values -/

/-- Nothing is known about the text. -/
def TextGuarantee.IsOpen (g : TextGuarantee) : Prop := g.charset = .unconstrained ∧ g.values = none

/-- The value is one that an operation of unknown effect may leave. -/
def Value.IsOpen : Value → Prop
  | .text g => g.IsOpen
  | .integer iv => ∀ v, iv.high ≠ .finite v

theorem Value.isOpen_of_hasFiniteHigh {v : Value} {iv : Interval} (hv : v = .integer iv)
    (h : v.hasFiniteHigh = false) : v.IsOpen := by
  subst hv
  intro b hb
  unfold hasFiniteHigh high? interval? at h
  simp only [Option.map_some, hb] at h
  contradiction

namespace TextGuarantee

variable {g : TextGuarantee}

theorem isOpen_unconstrained : unconstrained.IsOpen := ⟨rfl, rfl⟩

theorem IsOpen.cut (hg : g.IsOpen) (truncate : Option Nat) (ints : List Int64) :
    (g.cut truncate ints).IsOpen :=
  ⟨(g.cut_charset truncate ints).trans hg.1, cut_values truncate ints hg.2⟩

theorem IsOpen.caseMapped (hg : g.IsOpen) (lower : Bool) : (g.caseMapped lower).IsOpen := by
  unfold TextGuarantee.caseMapped
  rw [hg.2, hg.1]
  exact ⟨rfl, rfl⟩

theorem concat_unconstrained (c : Charset) : c.concat .unconstrained = .unconstrained := by
  cases c <;> rfl

theorem inherited_isOpen : Inherited IsOpen where
  concat_left := by
    intro g h hg
    refine ⟨?_, rfl⟩
    unfold TextGuarantee.concat
    rw [hg.1]
    rfl
  concat_right := by
    intro g h hh
    refine ⟨?_, rfl⟩
    unfold TextGuarantee.concat
    rw [hh.1]
    exact concat_unconstrained g.charset
  beside := fun length place hg => ⟨hg.1, by rw [TextGuarantee.beside, hg.2]; rfl⟩

/-- Cutting and joining an open text give an open one. -/
theorem IsOpen.passThrough (hg : g.IsOpen) (truncate : Option Nat) (pieces : List Piece) :
    (g.passThrough truncate pieces).IsOpen :=
  inherited_isOpen.passThrough (current_mem_inOrder pieces) rfl
    (hg.cut truncate (pieces.filterMap Piece.int?))

end TextGuarantee

/-! ## Levels -/

/-- While a name is pending on the level, nothing is known about its value. -/
def Level.FailsClosed (l : Level) : Prop := l.pending.isSome → l.value.IsOpen

theorem Level.failsClosed_settled {accepts : Level → Bool} {l : Level}
    (h : accepts l = false → l.FailsClosed) : (l.settled accepts).FailsClosed := by
  intro hp
  rw [settled_pending] at hp
  split at hp
  · contradiction
  · next ha =>
    rw [settled_value]
    exact h (Bool.not_eq_true _ ▸ ha) hp

namespace Branch

variable {b : Branch}

theorem narrowsText_of_isOpen {g g' : TextGuarantee} (hg : g.IsOpen)
    (h : g'.charset ≠ .unconstrained) : Walk.narrowsText (.text g) (.text g') = true := by
  have hne : g ≠ g' := by
    intro he
    rw [← he] at h
    exact h hg.1
  have hknown : g'.isUnconstrained = false := by
    unfold TextGuarantee.isUnconstrained
    cases hc : g'.charset with
    | unconstrained => exact absurd hc h
    | _ => rfl
  simp [Walk.narrowsText, Value.guarantee?, hknown, hne]

/-- A guard that teaches something about an open text settles what is pending. -/
theorem isOpen_or_settles {g g' : TextGuarantee} (h : g.RefinedBy b g') (hg : g.IsOpen) :
    g'.IsOpen ∨ Walk.enteringSettles b (.text g) (.text g') = true := by
  unfold Walk.enteringSettles
  cases h with
  | kept _ => exact Or.inl hg
  | @listed values hpassed _ =>
    have hknown : (g.within values).charset ≠ .unconstrained := by
      rintro ⟨⟩
    rw [narrowsText_of_isOpen hg hknown, hpassed]
    exact Or.inr rfl
  | @matched pattern _ _ _ hpassed _ hmatching =>
    rcases TextGuarantee.matching_eq_ok hmatching hg.2 with ⟨shape, -, rfl⟩ | rfl
    · -- a shape may be that of any text, and then nothing is known after the guard either
      by_cases hopen : g.charset.confined shape.chars pattern = .unconstrained
      · exact Or.inl ⟨hopen, rfl⟩
      · rw [narrowsText_of_isOpen hg hopen, hpassed]
        exact Or.inr rfl
    · exact Or.inl hg

end Branch

namespace Walk

variable {p : Path} {c : Catalogue} {w w' : Walk} {index : Nat} {why : String}

/-! ## Steps -/

/-- A transform that establishes nothing of its own keeps an open value open. -/
theorem isOpen_of_evaluate {name : String} {effect : TextEffect} {pieces : List Piece} {v : Value}
    {g : TextGuarantee} (h : effect.evaluate name pieces v = .ok g)
    (heffect : effect.isSanitizing = false) (hv : v.IsOpen) : g.IsOpen := by
  cases effect with
  | passThrough truncate =>
    cases v with
    | integer iv => contradiction
    | text h' =>
      obtain rfl := Except.ok.inj h
      exact TextGuarantee.IsOpen.passThrough hv truncate pieces
  | caseMap lower =>
    cases v with
    | integer iv => contradiction
    | text h' =>
      obtain rfl := Except.ok.inj h
      exact TextGuarantee.IsOpen.caseMapped hv lower
  | _ => contradiction

theorem enteredLevel_failsClosed {b : Branch} {l : Level} {id : Nat} {v : Value}
    (hl : l.FailsClosed) (h : b.refine l.value = .ok (v, why))
    (hsettles : enteringSettles b l.value v = false) :
    (enteredLevel l index id v).FailsClosed := by
  intro hp
  rw [Level.enteredLevel_pending] at hp
  rw [Level.enteredLevel_value]
  have hopen : l.value.IsOpen := hl hp
  cases hv : l.value with
  | integer iv =>
    rw [hv] at h hsettles
    obtain ⟨iv', hv', -⟩ := Branch.refine_integer_eq_ok h
    have hhigh : v.hasFiniteHigh = false := by
      unfold enteringSettles at hsettles
      exact (Bool.or_eq_false_iff.mp hsettles).2
    exact Value.isOpen_of_hasFiniteHigh hv' hhigh
  | text g =>
    rw [hv] at h hsettles hopen
    obtain ⟨g', rfl, hrefined⟩ := Branch.refine_text_eq_ok h
    rcases Branch.isOpen_or_settles hrefined hopen with hopen' | hs
    · exact hopen'
    · rw [hs] at hsettles
      contradiction

/-- An operation keeps the invariant on every level. -/
theorem apply_failsClosed {op : Operation} (h : w.apply p c index op = .ok (w', why))
    (hw : ∀ l ∈ w.levels, l.FailsClosed) : ∀ l ∈ w'.levels, l.FailsClosed := by
  intro l' hl'
  cases op with
  | source s =>
    obtain ⟨rfl, -⟩ := Prod.mk.inj (Except.ok.inj h)
    obtain rfl := List.mem_singleton.mp hl'
    exact fun hp => by contradiction
  | numeric o operands =>
    rcases applyNumeric_eq_ok h with ⟨name, _, rfl⟩ | ⟨target, ls, _, _, _, hls, rfl⟩
    · -- the name is pending on every level, and its value is any integer
      rw [forgetNumeric_levels] at hl'
      obtain ⟨l, hl, rfl⟩ := List.mem_map.mp hl'
      exact fun _ v hv => by contradiction
    · obtain ⟨l₁, hl₁, rfl⟩ := List.mem_map.mp hl'
      obtain ⟨l, hl, hstep⟩ := exists_of_forall₂_of_mem hls hl₁
      obtain ⟨inputs, iv, _, _, rfl⟩ := numericLevel_eq_ok.mp hstep
      exact Level.failsClosed_settled fun hhigh _ => Value.isOpen_of_hasFiniteHigh rfl hhigh
  | string name arguments =>
    rcases applyText_eq_ok h with ⟨_, rfl⟩ | ⟨effect, pieces, ls, _, _, _, hls, rfl⟩
    · rw [forgetText_levels] at hl'
      obtain ⟨l, hl, rfl⟩ := List.mem_map.mp hl'
      exact fun _ => TextGuarantee.isOpen_unconstrained
    · rw [redact_levels] at hl'
      obtain ⟨l₁, hl₁, rfl⟩ := List.mem_map.mp hl'
      obtain ⟨l, hl, hstep⟩ := exists_of_forall₂_of_mem hls hl₁
      obtain ⟨g, hg, hvalue, hpending, _⟩ := textLevel_eq_ok hstep
      -- what was pending before the transform still is, unless the transform is sanitizing
      refine Level.failsClosed_settled ?_
      intro heffect hp
      rw [hvalue]
      exact isOpen_of_evaluate hg heffect (hw l hl (hpending ▸ hp))
  | guard id =>
    obtain ⟨b, l, ls, v, _, _, hls, hv, rfl⟩ := enterBranch_eq_ok h
    obtain ⟨l₁, hl₁, rfl⟩ := List.mem_map.mp hl'
    refine Level.failsClosed_settled ?_
    intro haccepts
    rcases List.mem_cons.mp hl₁ with rfl | hl₁
    · rw [Level.enteredLevel_branch, decide_eq_true rfl, Bool.and_true] at haccepts
      exact enteredLevel_failsClosed (hw l (hls ▸ List.mem_cons_self)) hv haccepts
    · exact hw l₁ hl₁
  | sink k =>
    obtain ⟨rfl, -⟩ := Prod.mk.inj (Except.ok.inj h)
    exact hw l' hl'

/-- While a name is pending on a level, nothing is known about its value. -/
theorem Reached.failsClosed {ss : List Step} (h : Reached p c ss w) :
    ∀ l ∈ w.levels, l.FailsClosed := by
  induction h with
  | start => exact fun l hl => by simp at hl
  | step _ hstep ih =>
    obtain ⟨w₁, _, _, _, happly, _, rfl⟩ := step_eq_ok hstep
    show ∀ l ∈ w₁.levels, l.FailsClosed
    exact apply_failsClosed happly fun l hl => ih l (mem_of_mem_leave hl)

end Walk

/-! ## Verdicts -/

/-- An integer without a finite upper bound is safe at a loop bound only if there is none. -/
theorem LoopBound.not_mem_of_check_safe {iv : Interval} {ceiling : Nat}
    {boundingStep : Option Nat} (h : (check iv ceiling boundingStep).outcome = .safe)
    (hiv : ∀ v, iv.high ≠ .finite v) (z : Int) : z ∉ iv := by
  intro hz
  have hhigh : iv.high = .posInf := by
    cases hb : iv.high with
    | negInf =>
      have : iv.high.AtLeast z := hz.2
      rw [hb] at this
      exact this.elim
    | finite v => exact absurd hb (hiv v)
    | posInf => rfl
  rcases check_outcome_safe.mp h with hempty | hneg | hle
  · rw [Interval.isEmpty_eq_false_of_mem hz] at hempty
    contradiction
  · rw [hhigh] at hneg
    exact hneg trivial
  · rw [hhigh, Bound.ofCount_eq] at hle
    exact hle.elim

/-- While a name is pending, nothing is known about the value: it is a text without a guarantee, or
an integer without a finite upper bound. So where a path ends with a name pending, no sink that
forbids characters is safe, and a loop bound is safe only if no integer reaches it. -/
theorem pending_fails_closed (c : Classifier) (p : Path) :
    (∀ ss w, Walk.Reached p c.catalogue ss w → ∀ l ∈ w.levels, l.pending.isSome →
      (∃ g, l.value = .text g ∧ g.charset = .unconstrained) ∨
        ∃ iv, l.value = .integer iv ∧ ∀ v, iv.high ≠ .finite v) ∧
    ∀ s, c.summarize p = .ok s → s.pending.isSome →
      (∀ k ∈ [Sink.htmlBody, .htmlAttribute, .scriptString, .urlComponent, .cssValue],
        p.sink? = some k → (c.classify p).outcome ≠ .safe) ∧
      (p.sink? = some .loopBound → (c.classify p).outcome = .safe →
        ∃ iv, s.value = .integer iv ∧ ∀ z : Int, z ∉ iv) := by
  constructor
  · intro ss w hw l hl hp
    have hopen : l.value.IsOpen := hw.failsClosed l hl hp
    cases hv : l.value with
    | text g =>
      rw [hv] at hopen
      exact Or.inl ⟨g, rfl, hopen.1⟩
    | integer iv =>
      rw [hv] at hopen
      exact Or.inr ⟨iv, rfl, hopen⟩
  · intro s hs hp
    constructor
    · intro k hk hsink hsafe
      have hforbids : k.forbidden?.isSome := by
        simp only [List.mem_cons, List.not_mem_nil, or_false] at hk
        rcases hk with rfl | rfl | rfl | rfl | rfl <;> rfl
      obtain ⟨forbidden, hforbidden⟩ := Option.isSome_iff_exists.mp hforbids
      obtain ⟨hnone, -⟩ := Classifier.injection_safe_of_classify_safe hs hsink hforbidden hsafe
      rw [hnone] at hp
      contradiction
    · intro hsink hsafe
      obtain ⟨iv, hvalue, hcheck⟩ := Classifier.exists_integer_of_classify_safe hs hsink hsafe
      obtain ⟨w, hw, l, hl, hlevel, hpending⟩ := Path.exists_level_of_summarize hs
      have hopen : l.value.IsOpen := hw.failsClosed l hl (hpending ▸ hp)
      rw [hlevel, hvalue] at hopen
      exact ⟨iv, hvalue, LoopBound.not_mem_of_check_safe hcheck hopen⟩

/-- A helper that the catalogue does not have, on the way into a page. -/
def unknownHelper : Path :=
  { version := pathVersion
    branches := []
    steps :=
      [⟨.source (.ofText "name"), none⟩, ⟨.string "decorate" [], none⟩, ⟨.sink .htmlBody, none⟩] }

def escaping : Classifier := .ofEntries 10 [("escapeHtml", .text (.escape .html))]

theorem pending_unknownHelper :
    ∃ s, escaping.summarize unknownHelper = .ok s ∧ s.pending = some "decorate" ∧
      (escaping.classify unknownHelper).outcome ≠ .safe := by
  have hpending : (escaping.summarize unknownHelper).toOption.bind (·.pending) =
      some "decorate" := by
    decide
  cases hs : escaping.summarize unknownHelper with
  | error f =>
    rw [hs] at hpending
    contradiction
  | ok s =>
    rw [hs] at hpending
    have hsome : s.pending = some "decorate" := hpending
    have hp : s.pending.isSome := hsome ▸ rfl
    exact ⟨s, rfl, hsome,
      ((pending_fails_closed escaping unknownHelper).2 s hs hp).1 .htmlBody
        List.mem_cons_self rfl⟩

end FlowSafety
