/-!
# The order of texts

Texts go by the code of the first character in which they differ, and a text goes before every text
that continues it. `Text.before` is irreflexive (`before_irrefl`), transitive (`before_trans`) and
total (`eq_of_not_before`), so an ascending list has one form for each set of its members.
-/

namespace FlowSafety.Text

/-! ## Sequences of characters -/

/-- Whether the first sequence of characters goes before the second. -/
def charsBefore : List Char → List Char → Bool
  | _, [] => false
  | [], _ :: _ => true
  | a :: as, b :: bs => a.toNat < b.toNat || (a.toNat = b.toNat && charsBefore as bs)

theorem charsBefore_irrefl (as : List Char) : charsBefore as as = false := by
  induction as with
  | nil => rfl
  | cons a as ih => simp [charsBefore, ih]

theorem charsBefore_trans {as bs cs : List Char} (hab : charsBefore as bs = true)
    (hbc : charsBefore bs cs = true) : charsBefore as cs = true := by
  induction as generalizing bs cs with
  | nil =>
    cases cs with
    | nil => cases bs <;> simp [charsBefore] at hbc
    | cons => rfl
  | cons a as ih =>
    cases bs with
    | nil => simp [charsBefore] at hab
    | cons b bs =>
      cases cs with
      | nil => simp [charsBefore] at hbc
      | cons c cs =>
        simp only [charsBefore, Bool.or_eq_true, Bool.and_eq_true, decide_eq_true_eq] at hab hbc ⊢
        rcases hab with hab | ⟨hab, hab'⟩
        · exact Or.inl (by omega)
        · rcases hbc with hbc | ⟨hbc, hbc'⟩
          · exact Or.inl (by omega)
          · exact Or.inr ⟨by omega, ih hab' hbc'⟩

theorem eq_of_not_charsBefore {as bs : List Char} (hab : charsBefore as bs = false)
    (hba : charsBefore bs as = false) : as = bs := by
  induction as generalizing bs with
  | nil =>
    cases bs with
    | nil => rfl
    | cons => simp [charsBefore] at hab
  | cons a as ih =>
    cases bs with
    | nil => simp [charsBefore] at hba
    | cons b bs =>
      simp only [charsBefore, Bool.or_eq_false_iff, Bool.and_eq_false_imp, decide_eq_false_iff_not,
        decide_eq_true_eq] at hab hba
      have heq : a.toNat = b.toNat := by omega
      rw [Char.toNat_inj.1 heq, ih (hab.2 heq) (hba.2 heq.symm)]

/-! ## Texts -/

/-- Whether the first text goes before the second. -/
def before (s t : String) : Bool := charsBefore s.toList t.toList

theorem before_irrefl (s : String) : before s s = false := charsBefore_irrefl s.toList

theorem before_trans {s t u : String} (hst : before s t = true) (htu : before t u = true) :
    before s u = true :=
  charsBefore_trans hst htu

theorem eq_of_not_before {s t : String} (hst : before s t = false) (hts : before t s = false) :
    s = t :=
  String.toList_inj.1 (eq_of_not_charsBefore hst hts)

end FlowSafety.Text
