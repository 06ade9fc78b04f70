import FlowSafety.Walk.Transform

/-!
# What joining keeps

A concatenation joins the flowing text and the results of earlier steps, and puts literals around
them. A property that survives each single join holds of the whole concatenation if it holds of one
of the texts in it.

* `TextGuarantee.Inherited` — the property survives a join with any other text
* `Inherited.passThrough` — a concatenation inherits it from each of its pieces
-/

namespace FlowSafety

/-- The guarantee of the text that a piece stands for, if it is tainted. -/
def Piece.tainted? (current : TextGuarantee) : Piece → Option TextGuarantee
  | .current => some current
  | .value (.text g) => some g
  | .value (.integer iv) => some (.ofInteger iv 10)
  | .literal _ | .int _ => none

namespace TextGuarantee

variable {P : TextGuarantee → Prop} {g current : TextGuarantee} {pieces : List Piece}

/-- A joined text has the property if one of its parts does. -/
structure Inherited (P : TextGuarantee → Prop) : Prop where
  concat_left : ∀ {g h : TextGuarantee}, P g → P (g.concat h)
  concat_right : ∀ {g h : TextGuarantee}, P h → P (g.concat h)
  beside : ∀ {g : TextGuarantee} (length : Nat) (place : String → String), P g →
    P (g.beside length place)

/-! ## Cutting -/

theorem cut_charset (g : TextGuarantee) (truncate : Option Nat) (ints : List Int64) :
    (g.cut truncate ints).charset = g.charset := by
  unfold cut
  split <;> rfl

theorem cut_values (truncate : Option Nat) (ints : List Int64) (hg : g.values = none) :
    (g.cut truncate ints).values = none := by
  unfold cut
  split
  · rw [TextGuarantee.truncate, hg]
    rfl
  · exact hg

/-- Fewer than two numbers do not make a cut. -/
theorem cut_of_few {ints : List Int64} (h : ints.length < 2) : g.cut none ints = g := by
  rcases ints with _ | ⟨n, _ | ⟨m, ints⟩⟩
  · rfl
  · rfl
  · exact absurd h (Nat.not_lt.mpr (Nat.le_add_left 2 _))

/-! ## Joining -/

theorem Joint.tainted_add (j : Joint) (p : Piece) :
    (j.add current p).tainted =
      match p.tainted? current with
      | some g => (j.join g).tainted
      | none => j.tainted := by
  cases p with
  | current => rfl
  | int v => rfl
  | literal s =>
    show (if j.tainted.isNone then _ else _ : Joint).tainted = j.tainted
    split <;> rfl
  | value v => cases v <;> rfl

theorem Joint.inherited_join {j : Joint} (hP : Inherited P)
    (h : P g ∨ ∃ t, j.tainted = some t ∧ P t) : ∃ t, (j.join g).tainted = some t ∧ P t := by
  unfold Joint.join
  cases ht : j.tainted with
  | none =>
    rcases h with hg | ⟨t, hj, -⟩
    · exact ⟨g, rfl, hg⟩
    · rw [ht] at hj
      contradiction
  | some u =>
    refine ⟨_, rfl, ?_⟩
    rcases h with hg | ⟨t, hj, hu⟩
    · exact hP.concat_right hg
    · obtain rfl := Option.some.inj (ht.symm.trans hj)
      exact hP.concat_left hu

/-- Once a piece with the property is joined, the joint keeps it. -/
theorem Joint.inherited_foldl {j : Joint} (hP : Inherited P)
    (h : (∃ t, j.tainted = some t ∧ P t) ∨ ∃ p ∈ pieces, ∃ t, p.tainted? current = some t ∧ P t) :
    ∃ t, (pieces.foldl (Joint.add current) j).tainted = some t ∧ P t := by
  -- either the joint has the property already, or a piece that has it is still to come
  induction pieces generalizing j with
  | nil =>
    rcases h with h | ⟨p, hp, -⟩
    · exact h
    · simp at hp
  | cons q pieces ih =>
    rw [List.foldl_cons]
    have hadd : (j.add current q).tainted = _ := j.tainted_add q
    rcases h with ⟨t, hj, ht⟩ | ⟨p, hp, t, hpt, ht⟩
    · refine ih (Or.inl ?_)
      rw [hadd]
      split
      · exact inherited_join hP (Or.inr ⟨t, hj, ht⟩)
      · exact ⟨t, hj, ht⟩
    · rcases List.mem_cons.mp hp with rfl | hp
      · refine ih (Or.inl ?_)
        rw [hadd, hpt]
        exact inherited_join hP (Or.inl ht)
      · exact ih (Or.inr ⟨p, hp, t, hpt, ht⟩)

theorem inherited_foldl_beside {length : String → Nat} {place : String → String → String}
    {texts : List String} (hP : Inherited P) (hg : P g) :
    P (texts.foldl (fun g s => g.beside (length s) (place s)) g) := by
  induction texts generalizing g with
  | nil => exact hg
  | cons s texts ih => exact ih (hP.beside _ _ hg)

theorem current_mem_inOrder (pieces : List Piece) : Piece.current ∈ inOrder pieces := by
  unfold inOrder
  split
  · next h =>
    obtain ⟨p, hp, hcurrent⟩ := List.any_eq_true.mp h
    cases p with
    | current => exact List.mem_filter.mpr ⟨hp, rfl⟩
    | _ => contradiction
  · exact List.mem_cons_self

theorem mem_inOrder {p : Piece} (hp : p ∈ pieces) (hint : p.isInt = false) :
    p ∈ inOrder pieces := by
  have hfilter : p ∈ pieces.filter (!·.isInt) := List.mem_filter.mpr ⟨hp, by rw [hint]; rfl⟩
  unfold inOrder
  split
  · exact hfilter
  · exact List.mem_cons_of_mem _ hfilter

/-- Only the flowing text is there where nothing is joined to it. -/
theorem eq_current_of_not_joined {p : Piece} {t : TextGuarantee}
    (hjoined : ¬ pieces.any Piece.isJoined = true) (hp : p ∈ inOrder pieces)
    (ht : p.tainted? current = some t) : t = current := by
  cases p with
  | current => exact (Option.some.inj ht).symm
  | literal s => contradiction
  | int v => contradiction
  | value v =>
    refine absurd (List.any_eq_true.mpr ⟨.value v, ?_, rfl⟩) hjoined
    unfold inOrder at hp
    split at hp
    · exact (List.mem_filter.mp hp).1
    · exact (List.mem_filter.mp ((List.mem_cons.mp hp).resolve_left (by simp))).1

/-- Cutting and joining keep the property of each piece. -/
theorem Inherited.passThrough {truncate : Option Nat} {p : Piece} {t : TextGuarantee}
    (hP : Inherited P) (hp : p ∈ inOrder pieces)
    (ht : p.tainted? (g.cut truncate (pieces.filterMap Piece.int?)) = some t) (hPt : P t) :
    P (g.passThrough truncate pieces) := by
  unfold TextGuarantee.passThrough
  split
  · -- the literals come last, and they only go beside what is joined
    obtain ⟨u, hu, hPu⟩ := Joint.inherited_foldl (j := {}) hP (Or.inr ⟨p, hp, t, ht, hPt⟩)
    simp only [Joint.result, hu, Option.getD_some]
    exact inherited_foldl_beside hP (inherited_foldl_beside hP hPu)
  · next hjoined =>
    rw [eq_current_of_not_joined hjoined hp ht] at hPt
    exact hPt

end TextGuarantee

end FlowSafety
