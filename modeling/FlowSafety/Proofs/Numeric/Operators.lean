import FlowSafety.Proofs.Interval.Corners
import FlowSafety.Proofs.Walk.Coverage

/-!
# Numeric operators on concrete integers

What the operators do to 64-bit integers, and that their counterparts on intervals follow. A value
that does not fit 64 bits is no result: it is the program's overflow, which ends the run.

* `Operator.Gives` — the result of an operator that reads all of its operands
* `Operator.Yields` — the result of any operator, given the values of the steps so far
* `Operator.evaluate_sound` — the interval of an operator holds whatever the operator yields
-/

namespace FlowSafety

/-- The value may be an integer. -/
def Value.HoldsInteger (n : Int64) : Value → Prop
  | .integer iv => n.toInt ∈ iv
  | .text _ => False

/-! ## Operands -/

/-- The operand reads as an integer, where the integers are those of the steps so far. -/
inductive Operand.Reads (ns : List Int64) : Operand → Int64 → Prop
  | current {n : Int64} : ns.getLast? = some n → Reads ns .current n
  | const {n : Int64} : Reads ns (.const n) n
  | range {iv : Interval} {n : Int64} : n.toInt ∈ iv → Reads ns (.range iv) n
  | step {target : Nat} {n : Int64} : ns[target]? = some n → Reads ns (.step target) n

namespace Operator

/-- The operands that an operator works on: the given ones, completed by the flowing value where one
is missing. -/
def completedOperands (o : Operator) (operands : List Operand) : List Operand :=
  match o.arity? with
  | some 0 => operands
  | some n => if operands.length + 1 = n then .current :: operands else operands
  | none => if operands.length = 1 then .current :: operands else operands

/-! ## Results -/

/-- The result of an operator that reads all of its operands. -/
inductive Gives : Operator → List Int64 → Int64 → Prop
  | add {x y n : Int64} : n.toInt = x.toInt + y.toInt → Gives .add [x, y] n
  | sub {x y n : Int64} : n.toInt = x.toInt - y.toInt → Gives .sub [x, y] n
  | mul {x y n : Int64} : n.toInt = x.toInt * y.toInt → Gives .mul [x, y] n
  /-- Division truncates toward zero. -/
  | div {x y n : Int64} : y.toInt ≠ 0 → n.toInt = x.toInt.tdiv y.toInt → Gives .div [x, y] n
  /-- The remainder is the floor modulus. -/
  | rem {x y n : Int64} : y.toInt ≠ 0 → n.toInt = x.toInt.fmod y.toInt → Gives .rem [x, y] n
  | bitAnd {x y : Int64} : Gives .bitAnd [x, y] (x &&& y)
  | shr {x amount n : Int64} : 0 ≤ amount.toInt → amount.toInt ≤ 63 →
      n.toInt = x.toInt >>> amount.toInt.toNat → Gives .shr [x, amount] n
  | abs {x n : Int64} : n.toInt = x.toInt.natAbs → Gives .abs [x] n
  | neg {x n : Int64} : n.toInt = -x.toInt → Gives .neg [x] n
  | min {x n : Int64} {xs : List Int64} :
      n.toInt = (xs.map Int64.toInt).foldl Min.min x.toInt → Gives .min (x :: xs) n
  | max {x n : Int64} {xs : List Int64} :
      n.toInt = (xs.map Int64.toInt).foldl Max.max x.toInt → Gives .max (x :: xs) n
  | clamp {x low high n : Int64} :
      n.toInt = Min.min (Max.max x.toInt low.toInt) high.toInt → Gives .clamp [x, low, high] n

/-- The result of an operator on completed operands, where the integers are those of the steps so
far. A conditional reads only the alternative that it takes, and an enumeration reads nothing. -/
inductive Yields (ns : List Int64) : Operator → List Operand → Int64 → Prop
  | strict {o : Operator} {operands : List Operand} {xs : List Int64} {n : Int64} :
      List.Forall₂ (Operand.Reads ns) operands xs → Gives o xs n → Yields ns o operands n
  | ternary {alternative : Operand} {operands : List Operand} {n : Int64} :
      alternative ∈ operands → alternative.Reads ns n → Yields ns .ternary operands n
  | enumOrdinal {arity : Nat} {operands : List Operand} {n : Int64} :
      0 ≤ n.toInt → n.toInt < arity → Yields ns (.enumOrdinal arity) operands n
  | enumValue {values : List Int64} {operands : List Operand} {n : Int64} :
      n ∈ values → Yields ns (.enumValue values) operands n

end Operator

/-! ## Bitwise conjunction -/

/-- A conjunct that is not negative bounds the conjunction. -/
theorem toInt_and_le {x : Int64} (y : Int64) (hx : 0 ≤ x.toInt) :
    0 ≤ (x &&& y).toInt ∧ (x &&& y).toInt ≤ x.toInt := by
  have hmsb : x.toBitVec.msb = false := by
    rw [BitVec.msb_eq_toInt]
    exact decide_eq_false (Int.not_lt.mpr hx)
  have hand : (x.toBitVec &&& y.toBitVec).msb = false := by
    rw [BitVec.msb_and, hmsb, Bool.false_and]
  have hle : (x.toBitVec &&& y.toBitVec).toNat ≤ x.toBitVec.toNat := by
    rw [BitVec.toNat_and]
    exact Nat.and_le_left
  have hxn : x.toInt = x.toBitVec.toNat := BitVec.toInt_eq_toNat_of_msb hmsb
  have handn : (x &&& y).toInt = (x.toBitVec &&& y.toBitVec).toNat :=
    BitVec.toInt_eq_toNat_of_msb hand
  rw [hxn, handn]
  exact ⟨Int.natCast_nonneg _, Int.ofNat_le.mpr hle⟩

namespace Interval

variable {a b : Interval} {x y : Int64}

theorem mem_bitAnd_word (hx : x.toInt ∈ a) (hy : y.toInt ∈ b) :
    (x &&& y).toInt ∈ a.bitAnd b := by
  have hcomm : x &&& y = y &&& x := Int64.and_comm x y
  exact mem_bitAnd hx hy (fun h => toInt_and_le y h) fun h => by rw [hcomm]; exact toInt_and_le x h

/-! ## Enumerations -/

/-- A position below a count, unless the count is beyond 64 bits. -/
theorem mem_below {n : Nat} {z : Int} (hn : n < 2 ^ 63) (h0 : 0 ≤ z) (hz : z < n) :
    z ∈ below n := by
  have hmax : Int64.maxValue.toInt = 2 ^ 63 - 1 := Int64.toInt_maxValue
  unfold below
  rw [Int.min_eq_left (by omega)]
  exact mem_ofBounds h0 (Bound.isUpper_ofInt (by omega))

end Interval

namespace TextGuarantee

theorem foldl_lower_le {vs : List Int64} {v x : Int64} (hx : x ∈ v :: vs) :
    (vs.foldl (fun a b => if b.toInt < a.toInt then b else a) v).toInt ≤ x.toInt := by
  refine foldl_rel_of_mem (r := fun a b => a.toInt ≤ b.toInt) (fun a => Int.le_refl _)
    (fun h h' => Int.le_trans h h') ?_ ?_ hx
  · intro a b
    split <;> omega
  · intro a b
    split <;> omega

theorem le_foldl_upper {vs : List Int64} {v x : Int64} (hx : x ∈ v :: vs) :
    x.toInt ≤ (vs.foldl (fun a b => if a.toInt < b.toInt then b else a) v).toInt := by
  refine foldl_rel_of_mem (r := fun a b => b.toInt ≤ a.toInt) (fun a => Int.le_refl _)
    (fun h h' => Int.le_trans h' h) ?_ ?_ hx
  · intro a b
    split <;> omega
  · intro a b
    split <;> omega

/-- The hull of some integers holds each of them. -/
theorem mem_hullOf {vs : List Int64} {iv : Interval} {x : Int64} (h : hullOf vs = some iv)
    (hx : x ∈ vs) : x.toInt ∈ iv := by
  cases vs with
  | nil => simp at hx
  | cons v vs =>
    obtain rfl := Option.some.inj h
    exact Interval.mem_range (foldl_lower_le hx) (le_foldl_upper hx)

end TextGuarantee

/-! ## Operands of a walk -/

section Operands

variable {o : Operator} {operand : Operand} {operands : List Operand} {ns xs : List Int64}
  {n : Int64} {inputs : List Value} {u v : Value} {w : Walk} {index : Nat}

theorem holdsInteger_of_reads (hw : w.Covers Value.HoldsInteger ns)
    (hv : ∀ y ∈ ns.getLast?, v.HoldsInteger y) (hu : w.operandValue index v operand = .ok u)
    (hn : operand.Reads ns n) : u.HoldsInteger n := by
  cases hn with
  | current hlast =>
    cases hu
    exact hv n hlast
  | const =>
    cases hu
    exact Interval.mem_constant.mpr rfl
  | range hmem =>
    cases hu
    exact hmem
  | step hget => exact hw.result (Walk.resultOf_eq_ok.mp hu) hget

/-- The operator completes the values of the operands as it does the operands. -/
theorem forall₂_completed (h : operands.mapM (w.operandValue index v) = .ok inputs) :
    List.Forall₂ (fun operand u => w.operandValue index v operand = .ok u)
      (o.completedOperands operands) (o.completed inputs v) := by
  have hall := forall₂_of_mapM_eq_ok h
  have hlen : operands.length = inputs.length := hall.length_eq
  unfold Operator.completedOperands Operator.completed
  rw [hlen]
  cases o.arity? with
  | none =>
    by_cases hone : inputs.length = 1
    · simp only [hone, if_true]
      exact .cons rfl hall
    · simp only [hone, if_false]
      exact hall
  | some k =>
    cases k with
    | zero => exact hall
    | succ k =>
      by_cases hone : inputs.length + 1 = k + 1
      · simp only [hone, if_true]
        exact .cons rfl hall
      · simp only [hone, if_false]
        exact hall

theorem forall₂_holdsInteger (hw : w.Covers Value.HoldsInteger ns)
    (hv : ∀ y ∈ ns.getLast?, v.HoldsInteger y)
    (hinputs : List.Forall₂ (fun operand u => w.operandValue index v operand = .ok u)
      operands inputs) (hxs : List.Forall₂ (Operand.Reads ns) operands xs) :
    List.Forall₂ Value.HoldsInteger xs inputs := by
  induction hinputs generalizing xs with
  | nil =>
    cases hxs
    exact .nil
  | cons hu _ ih =>
    cases hxs with
    | cons hx hxs => exact .cons (holdsInteger_of_reads hw hv hu hx) (ih hxs)

end Operands

namespace Operator

variable {o : Operator} {operands : List Operand} {ns xs : List Int64} {n : Int64}
  {inputs : List Value} {v : Value} {iv : Interval} {ivs : List Interval}

/-! ## Operators on intervals -/

/-- What relates something to the values of operands relates it to their intervals. -/
theorem forall₂_of_intervals {α : Type} {R : α → Value → Prop} {as : List α} {name : String}
    (h : intervals name inputs = .ok ivs) (has : List.Forall₂ R as inputs) :
    List.Forall₂ (fun a iv => R a (.integer iv)) as ivs := by
  induction has generalizing ivs with
  | nil =>
    cases h
    exact .nil
  | @cons a u as inputs ha _ ih =>
    cases u with
    | text g => contradiction
    | integer iv =>
      obtain ⟨rest, hrest, rfl⟩ := map_eq_ok.mp h
      exact .cons ha (ih hrest)

theorem mem_intervals {name : String} (h : intervals name inputs = .ok ivs)
    (hv : Value.integer iv ∈ inputs) : iv ∈ ivs := by
  induction inputs generalizing ivs with
  | nil => simp at hv
  | cons u inputs ih =>
    cases u with
    | text g => contradiction
    | integer iv' =>
      obtain ⟨rest, hrest, rfl⟩ := map_eq_ok.mp h
      rcases List.mem_cons.mp hv with he | hv
      · cases he
        exact List.mem_cons_self
      · exact List.mem_cons_of_mem _ (ih hrest hv)

theorem foldTwo_eq_ok {name : String} {f : Interval → Interval → Interval}
    (h : foldTwo name f ivs = .ok iv) : ∃ a rest, ivs = a :: rest ∧ iv = rest.foldl f a := by
  unfold foldTwo at h
  split at h
  · contradiction
  · contradiction
  · next a rest _ => exact ⟨a, rest, rfl, (Except.ok.inj h).symm⟩

/-- On intervals, an operator other than subtraction holds what it gives on their members. -/
theorem onIntervals_sound (hsub : o ≠ .sub) (hgives : o.Gives xs n)
    (hxs : List.Forall₂ (fun x iv => x.toInt ∈ iv) xs ivs) (h : o.onIntervals ivs = .ok iv) :
    n.toInt ∈ iv := by
  cases hgives with
  | add hn =>
    obtain ⟨⟩ | ⟨ha, ⟨⟩ | ⟨hb, ⟨⟩⟩⟩ := hxs
    cases h
    rw [hn]
    exact Interval.mem_add ha hb
  | sub hn => exact absurd rfl hsub
  | mul hn =>
    obtain ⟨⟩ | ⟨ha, ⟨⟩ | ⟨hb, ⟨⟩⟩⟩ := hxs
    cases h
    rw [hn]
    exact Interval.mem_mul ha hb
  | div _ hn =>
    obtain ⟨⟩ | ⟨ha, ⟨⟩ | ⟨hb, ⟨⟩⟩⟩ := hxs
    cases h
    rw [hn]
    exact Interval.mem_div ha hb
  | rem h0 hn =>
    obtain ⟨⟩ | ⟨ha, ⟨⟩ | ⟨hb, ⟨⟩⟩⟩ := hxs
    cases h
    rw [hn]
    exact Interval.mem_rem ha hb h0
  | bitAnd =>
    obtain ⟨⟩ | ⟨ha, ⟨⟩ | ⟨hb, ⟨⟩⟩⟩ := hxs
    cases h
    exact Interval.mem_bitAnd_word ha hb
  | shr h0 _ hn =>
    obtain ⟨⟩ | ⟨ha, ⟨⟩ | ⟨hb, ⟨⟩⟩⟩ := hxs
    cases h
    rw [hn]
    exact Interval.mem_shiftRight ha ((Int.toNat_of_nonneg h0).symm ▸ hb)
  | abs hn =>
    obtain ⟨⟩ | ⟨ha, ⟨⟩⟩ := hxs
    cases h
    rw [hn]
    exact Interval.mem_abs ha
  | neg hn =>
    obtain ⟨⟩ | ⟨ha, ⟨⟩⟩ := hxs
    cases h
    rw [hn]
    exact Interval.mem_neg ha
  | min hn =>
    obtain ⟨a, rest, rfl, rfl⟩ := foldTwo_eq_ok h
    obtain ⟨⟩ | ⟨ha, hrest⟩ := hxs
    rw [hn]
    exact Interval.mem_foldl Interval.mem_minimum (List.forall₂_map_left_iff.mpr hrest) ha
  | max hn =>
    obtain ⟨a, rest, rfl, rfl⟩ := foldTwo_eq_ok h
    obtain ⟨⟩ | ⟨ha, hrest⟩ := hxs
    rw [hn]
    exact Interval.mem_foldl Interval.mem_maximum (List.forall₂_map_left_iff.mpr hrest) ha
  | clamp hn =>
    obtain ⟨⟩ | ⟨ha, ⟨⟩ | ⟨hl, ⟨⟩ | ⟨hh, ⟨⟩⟩⟩⟩ := hxs
    cases h
    rw [hn]
    exact Interval.mem_clamp ha hl hh

/-! ## Evaluation -/

/-- An operator that gives something is evaluated on the intervals of its operands. -/
theorem evaluate_eq_ok_of_gives (hgives : o.Gives xs n) (h : o.evaluate inputs v = .ok iv) :
    ∃ ivs, intervals o.name (o.completed inputs v) = .ok ivs ∧ o.onIntervals ivs = .ok iv := by
  unfold evaluate at h
  obtain ⟨_, -, h⟩ := bind_eq_ok.mp h
  cases hgives <;> exact bind_eq_ok.mp h

theorem evaluate_ternary (h : evaluate .ternary inputs v = .ok iv) :
    ∃ a rest, intervals "ternary" (completed .ternary inputs v) = .ok (a :: rest) ∧
      iv = rest.foldl .join a := by
  unfold evaluate at h
  obtain ⟨_, -, h⟩ := bind_eq_ok.mp h
  obtain ⟨ivs, hivs, h⟩ := bind_eq_ok.mp h
  obtain ⟨a, rest, rfl, rfl⟩ := foldTwo_eq_ok h
  exact ⟨a, rest, hivs, rfl⟩

/-- The interval of an operator holds whatever it yields, unless the operator is subtraction or an
enumeration with more constants than 64 bits can count. -/
theorem evaluate_sound {w : Walk} {index : Nat} (hw : w.Covers Value.HoldsInteger ns)
    (hv : ∀ y ∈ ns.getLast?, v.HoldsInteger y)
    (hinputs : operands.mapM (w.operandValue index v) = .ok inputs)
    (hyields : o.Yields ns (o.completedOperands operands) n) (hsub : o ≠ .sub)
    (harity : ∀ arity, o = .enumOrdinal arity → arity < 2 ^ 63)
    (h : o.evaluate inputs v = .ok iv) : n.toInt ∈ iv := by
  have hvalues := forall₂_completed (o := o) hinputs
  cases hyields with
  | strict hreads hgives =>
    obtain ⟨ivs, hivs, h⟩ := evaluate_eq_ok_of_gives hgives h
    exact onIntervals_sound hsub hgives
      (forall₂_of_intervals hivs (forall₂_holdsInteger hw hv hvalues hreads)) h
  | @ternary alternative _ _ halt hreads =>
    obtain ⟨a, rest, hivs, rfl⟩ := evaluate_ternary h
    obtain ⟨u, hu, hvalue⟩ := exists_of_forall₂_of_mem_left hvalues halt
    have hn : u.HoldsInteger n := holdsInteger_of_reads hw hv hvalue hreads
    cases u with
    | text g => exact hn.elim
    | integer iv' => exact Interval.mem_foldl_join hn (mem_intervals hivs hu)
  | enumOrdinal h0 hlt =>
    unfold evaluate at h
    obtain ⟨_, -, h⟩ := bind_eq_ok.mp h
    cases h
    exact Interval.mem_below (harity _ rfl) h0 hlt
  | enumValue hmem =>
    unfold evaluate at h
    obtain ⟨_, -, h⟩ := bind_eq_ok.mp h
    simp only at h
    split at h
    · next hull hhull =>
      cases h
      exact TextGuarantee.mem_hullOf hhull hmem
    · contradiction

end Operator

end FlowSafety
