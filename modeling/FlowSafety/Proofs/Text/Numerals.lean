import FlowSafety.Proofs.Json.Scalars
import FlowSafety.Proofs.Numeric.LoopBound
import FlowSafety.Proofs.Text.Bounds

/-!
# Numerals beside literals

Which integers a text is read as once constant text has been put beside it. The charset of such a
text is that of the part that is not constant, so a text of digits keeps its charset behind a sign,
while the integers that are expected of digits are not negative.

* `Text.lt_of_integer?` — the value of a numeral is bounded by its length
* `Text.int64?_toString` — an integer is read back from its numeral
* `TextGuarantee.mem_parsed_iff` — when the interval of a reading holds the integer that is read
* `mem_parsed_beside_literal` — the same with constant text before or behind
-/

namespace FlowSafety

/-! ## Numerals -/

namespace Text

variable {cs : List Char} {s : String} {n : Nat} {z : Int}

theorem digit_lt {c : Char} (h : c.isDigit = true) : c.toNat - 48 < 10 := by
  simp only [Char.isDigit, Bool.and_eq_true, decide_eq_true_eq, UInt32.le_iff_toNat_le] at h
  have hhigh : c.toNat ≤ 57 := h.2
  omega

theorem foldl_digits_lt {k : Nat} (hcs : ∀ c ∈ cs, c.isDigit = true) (hn : n < 10 ^ k) :
    cs.foldl (fun n c => 10 * n + (c.toNat - 48)) n < 10 ^ (k + cs.length) := by
  induction cs generalizing n k with
  | nil => exact hn
  | cons c cs ih =>
    have hdigit : c.toNat - 48 < 10 := digit_lt (hcs c List.mem_cons_self)
    have hnext : 10 * n + (c.toNat - 48) < 10 ^ (k + 1) := by
      rw [Nat.pow_succ]
      omega
    rw [List.foldl_cons, List.length_cons, ← Nat.add_assoc, Nat.add_right_comm]
    exact ih (fun d hd => hcs d (List.mem_cons_of_mem c hd)) hnext

theorem lt_of_digits? (h : digits? cs = some n) : n < 10 ^ cs.length := by
  unfold digits? at h
  split at h
  · contradiction
  · next hcs =>
    obtain rfl := Option.some.inj h
    rw [Bool.or_eq_true, not_or, Bool.not_eq_true', Bool.not_eq_false] at hcs
    have hlt := foldl_digits_lt (n := 0) (k := 0) (List.all_eq_true.mp hcs.2) Nat.zero_lt_one
    rwa [Nat.zero_add] at hlt

/-- A numeral of so many characters has no more digits. -/
theorem lt_of_integer? (h : integer? s = some z) : z < (10 ^ s.length : Nat) := by
  have hsign (c : Char) (cs : List Char) (n : Nat) (hcs : s.toList = c :: cs)
      (hn : n < 10 ^ cs.length) : n < 10 ^ s.length := by
    refine Nat.lt_of_lt_of_le hn (Nat.pow_le_pow_right (by omega) ?_)
    rw [← String.length_toList, hcs]
    exact Nat.le_succ _
  unfold integer? at h
  split at h
  · next cs hcs =>
    obtain ⟨n, hn, rfl⟩ := Option.map_eq_some_iff.mp h
    exact Int.ofNat_lt.mpr (hsign _ cs n hcs (lt_of_digits? hn))
  · next cs hcs =>
    obtain ⟨n, -, rfl⟩ := Option.map_eq_some_iff.mp h
    have hpos : 0 < 10 ^ s.length := Nat.pow_pos (by omega)
    show -(n : Int) < _
    omega
  · obtain ⟨n, hn, rfl⟩ := Option.map_eq_some_iff.mp h
    have hlt := lt_of_digits? hn
    rw [String.length_toList] at hlt
    exact Int.ofNat_lt.mpr hlt

theorem exists_int64?_of_integer? (h : integer? s = some z) (hlow : Int64.minValue.toInt ≤ z)
    (hhigh : z ≤ Int64.maxValue.toInt) : ∃ v, int64? s = some v ∧ v.toInt = z := by
  refine ⟨Int64.ofInt z, ?_, Bound.toInt_ofInt_of_fits (Int.not_lt.mpr hlow) (Int.not_lt.mpr hhigh)⟩
  unfold int64?
  rw [h]
  exact if_pos ⟨hlow, hhigh⟩

theorem digits?_toDigits (n : Nat) : digits? (Nat.toDigits 10 n) = some n := by
  have hne : Nat.toDigits 10 n ≠ [] := Nat.toDigits_ne_nil
  have hall : (Nat.toDigits 10 n).all Char.isDigit = true :=
    List.all_eq_true.mpr (Json.isDigit_of_mem_toDigits n)
  unfold digits?
  rw [if_neg (by simp [hne, hall])]
  exact congrArg some (Json.foldl_toDigits n)

theorem toDigits_ne_cons {c : Char} (hc : c.isDigit = false) (n : Nat) (cs : List Char) :
    Nat.toDigits 10 n ≠ c :: cs := by
  intro hcs
  have hdigit := Json.isDigit_of_mem_toDigits n c (by simp [hcs])
  rw [hc] at hdigit
  contradiction

theorem integer?_toString (z : Int) : integer? (toString z) = some z := by
  unfold integer?
  rcases Json.toList_toString_cases z with ⟨hz, hlist⟩ | ⟨hz, hlist⟩
  · rw [hlist]
    split
    · next cs hcs => exact absurd hcs (toDigits_ne_cons (by decide) _ _)
    · next cs hcs => exact absurd hcs (toDigits_ne_cons (by decide) _ _)
    · rw [digits?_toDigits]
      exact congrArg some (Int.toNat_of_nonneg hz)
  · have hvalue : -((-z).toNat : Int) = z := by omega
    rw [hlist]
    simp only [digits?_toDigits, Option.map_some]
    exact congrArg some hvalue

/-- An integer is read back from its numeral. -/
theorem int64?_toString (v : Int64) : int64? (toString v.toInt) = some v := by
  obtain ⟨w, hw, heq⟩ :=
    exists_int64?_of_integer? (integer?_toString v.toInt) v.minValue_le_toInt v.toInt_le
  rw [hw, Int64.toInt_inj.mp heq]

end Text

theorem IntType.fits {type : IntType} {z : Int} (h : type.Holds z) :
    Int64.minValue.toInt ≤ z ∧ z ≤ Int64.maxValue.toInt := by
  have hmin : Int64.minValue.toInt = -2 ^ 63 := Int64.toInt_minValue
  have hmax : Int64.maxValue.toInt = 2 ^ 63 - 1 := Int64.toInt_maxValue
  cases type <;>
    · obtain ⟨hlow, hhigh⟩ := h
      omega

/-! ## Readings -/

namespace TextGuarantee

variable {g : TextGuarantee} {s t : String} {type : IntType} {z : Int}

/-- The guarantee is true of the text. -/
structure Describes (g : TextGuarantee) (s : String) : Prop where
  chars : ∀ c ∈ s.toList, g.charset.possible.contains c = true
  length : ∀ m ∈ g.maxLength, s.length ≤ m
  value : ∀ vs ∈ g.values, s ∈ vs

theorem Describes.bounds (h : g.Describes s) : g.Bounds s := ⟨h.length, h.value⟩

theorem mem_parsed_of_value {values : TextSet} (hvalues : g.values = some values) (ht : t ∈ values)
    (hz : Text.integer? t = some z) (htype : type.Holds z) : z ∈ g.parsed type := by
  obtain ⟨v, hv, rfl⟩ :=
    Text.exists_int64?_of_integer? hz (IntType.fits htype).1 (IntType.fits htype).2
  have hmem : v ∈ values.toList.filterMap Text.int64? := List.mem_filterMap.mpr ⟨t, ht, hv⟩
  unfold parsed
  rw [hvalues]
  cases hhull : hullOf (values.toList.filterMap Text.int64?) with
  | none =>
    unfold hullOf at hhull
    split at hhull
    · next hnil =>
      rw [hnil] at hmem
      simp at hmem
    · contradiction
  | some iv =>
    simp only [Option.bind_some, hhull]
    exact Interval.mem_meet (mem_hullOf hhull hmem) (IntType.mem_range htype)

theorem mem_parsed_of_ne_digits (hvalues : g.values = none) (hcharset : g.charset ≠ .digits)
    (htype : type.Holds z) : z ∈ g.parsed type := by
  unfold parsed
  simp only [hvalues, Option.bind_none, hcharset, if_false]
  exact IntType.mem_range htype

/-- Digits are read as an integer that is not negative. -/
theorem mem_parsed_of_digits (hvalues : g.values = none) (hcharset : g.charset = .digits)
    (hlength : ∀ m ∈ g.maxLength, t.length ≤ m) (hz : Text.integer? t = some z)
    (htype : type.Holds z) : z ∈ g.parsed type ↔ 0 ≤ z := by
  unfold parsed
  simp only [hvalues, Option.bind_none, hcharset, if_true]
  constructor
  · intro hmem
    exact hmem.1.of_le (Interval.le_low_meet (Interval.le_low_ofBounds (le_refl _)))
  · intro hpos
    refine Interval.mem_meet (Interval.mem_ofBounds hpos ?_) (IntType.mem_range htype)
    cases hm : g.maxLength with
    | none => exact Bound.isUpper_posInf
    | some m =>
      simp only
      split
      · refine Bound.isUpper_ofInt ?_
        have hlt := Text.lt_of_integer? hz
        have hle : 10 ^ t.length ≤ 10 ^ m := Nat.pow_le_pow_right (by omega) (hlength m hm)
        show z ≤ ((10 ^ m - 1 : Nat) : Int)
        omega
      · exact Bound.isUpper_posInf

/-- The interval of a reading misses an integer only if it is negative and digits are expected. -/
theorem mem_parsed_iff (hlength : ∀ m ∈ g.maxLength, t.length ≤ m)
    (hvalue : ∀ vs ∈ g.values, t ∈ vs) (hz : Text.integer? t = some z) (htype : type.Holds z) :
    z ∈ g.parsed type ↔ 0 ≤ z ∨ g.charset ≠ .digits ∨ g.values ≠ none := by
  cases hvalues : g.values with
  | some vs => simp [mem_parsed_of_value hvalues (hvalue vs hvalues) hz htype]
  | none =>
    by_cases hcharset : g.charset = .digits
    · simp [mem_parsed_of_digits hvalues hcharset hlength hz htype, hcharset]
    · simp [mem_parsed_of_ne_digits hvalues hcharset htype, hcharset]

/-! ## Literals -/

theorem mem_parsed_beside_iff {length : Nat} {place : String → String} (h : g.Describes s)
    (hplace : (place s).length = s.length + length) (hz : Text.integer? (place s) = some z)
    (htype : type.Holds z) :
    z ∈ (g.beside length place).parsed type ↔ 0 ≤ z ∨ g.charset ≠ .digits ∨ g.values ≠ none := by
  obtain ⟨hlength, hvalue⟩ := h.bounds.beside place hplace
  rw [mem_parsed_iff hlength hvalue hz htype]
  show 0 ≤ z ∨ g.charset ≠ .digits ∨ g.values.map _ ≠ none ↔ _
  simp only [ne_eq, Option.map_eq_none_iff]

end TextGuarantee

/-- A text with constant text before or behind it is read as an integer within the interval of the
reading, unless the integer is negative and the text is known to have digits only and not known to
be one of finitely many. -/
theorem mem_parsed_beside_literal {g : TextGuarantee} {s literal : String} {type : IntType}
    {z : Int} (hs : g.Describes s) (hz : type.Holds z) :
    (Text.integer? (literal ++ s) = some z →
      (z ∈ (g.prepend literal).parsed type ↔ 0 ≤ z ∨ g.charset ≠ .digits ∨ g.values ≠ none)) ∧
    (Text.integer? (s ++ literal) = some z →
      (z ∈ (g.append literal).parsed type ↔ 0 ≤ z ∨ g.charset ≠ .digits ∨ g.values ≠ none)) := by
  constructor
  · intro hread
    exact TextGuarantee.mem_parsed_beside_iff hs
      (by rw [String.length_append, Nat.add_comm]) hread hz
  · intro hread
    exact TextGuarantee.mem_parsed_beside_iff hs (String.length_append s literal) hread hz

/-- A text of up to three digits. -/
def threeDigits : TextGuarantee := { charset := .digits, maxLength := some 3 }

theorem describes_threeDigits : threeDigits.Describes "25" where
  chars := by
    have hdigits : "25".toList.all CharClass.digits.contains = true := by
      rw [String.toList_ofList]
      decide
    exact List.all_eq_true.mp hdigits
  length := by decide
  value := by decide

/-- A year of this century, from its last two digits. -/
theorem mem_parsed_year : 2025 ∈ (threeDigits.prepend "20").parsed .i16 :=
  ((mem_parsed_beside_literal describes_threeDigits (by decide)).1 (by decide)).mpr
    (Or.inl (by decide))

/-- Digits behind a minus sign are read as an integer that the interval does not hold. -/
theorem not_mem_parsed_of_sign :
    Text.integer? ("-" ++ "25") = some (-25) ∧ IntType.i8.Holds (-25) ∧
      -25 ∉ (threeDigits.prepend "-").parsed .i8 := by
  decide

end FlowSafety
