import FlowSafety.Proofs.Text.Numerals

/-!
# Renderings of integers

The guarantee of the text that an integer is written as. Its length is counted on the wider of the
two ends of the interval, so it rests on the count being monotone in the number; an infinite end
counts as the widest word, and a negative integer is written in radix 16 as its two's complement,
which never takes more than sixteen digits.

* `digitCount_eq` — the count is the length of the numeral
* `natAbs_le_widest` — no member of an interval is wider than the wider end
* `confines_decimal`, `confines_hexText` — the renderings in both radices
* `ofInteger_confines_renderings` — the renderings, and the way back
-/

namespace FlowSafety

/-- The integer in radix 16, as the two's complement of 64 bits. -/
def Text.hexText (v : Int64) : String := String.ofList (Nat.toDigits 16 v.toUInt64.toNat)

namespace TextGuarantee

variable {iv : Interval} {v : Int64} {g : TextGuarantee} {s : String} {radix bound m n : Nat}

/-! ## Counting digits -/

theorem digitCountFrom_eq (hradix : 1 < radix) (hn : n ≤ bound) :
    digitCountFrom radix bound n = (Nat.toDigits radix n).length := by
  induction bound generalizing n with
  | zero =>
    obtain rfl := Nat.le_zero.mp hn
    rw [Nat.toDigits_zero]
    rfl
  | succ bound ih =>
    rw [digitCountFrom, Nat.toDigits_eq_if hradix]
    split
    · rfl
    · next hlarge =>
      have hless : n / radix < n := Nat.div_lt_self (by omega) hradix
      rw [ih (by omega), List.length_append, List.length_singleton]

theorem digitCount_eq (hradix : 1 < radix) : digitCount radix n = (Nat.toDigits radix n).length :=
  digitCountFrom_eq hradix (Nat.le_refl n)

/-- A smaller number has no more digits. -/
theorem length_toDigits_le_digitCount (hradix : 1 < radix) (h : m ≤ n) :
    (Nat.toDigits radix m).length ≤ digitCount radix n := by
  have hpos : 0 < digitCount radix n := by
    rw [digitCount_eq hradix]
    exact Nat.length_toDigits_pos
  -- numerals are compared by the power of the radix that the numbers are below
  have hlt : n < radix ^ digitCount radix n := by
    rw [← Nat.length_toDigits_le_iff hradix hpos, digitCount_eq hradix]
  rw [Nat.length_toDigits_le_iff hradix hpos]
  exact Nat.lt_of_le_of_lt h hlt

/-! ## Members of an interval -/

theorem natAbs_le_widest (hv : v.toInt ∈ iv) :
    v.toInt.natAbs ≤ max (magnitude iv.low) (magnitude iv.high) := by
  have hmin : -2 ^ 63 ≤ v.toInt := v.le_toInt
  have hmax : v.toInt < 2 ^ 63 := v.toInt_lt
  obtain ⟨low, high⟩ := iv
  obtain ⟨hlow, hhigh⟩ : low.AtMost v.toInt ∧ high.AtLeast v.toInt := hv
  cases low with
  | negInf =>
    simp only [magnitude, Size.largest]
    omega
  | posInf => exact hlow.elim
  | finite a =>
    have hlow : a.toInt ≤ v.toInt := hlow
    cases high with
    | negInf => exact hhigh.elim
    | posInf =>
      simp only [magnitude, Size.largest]
      omega
    | finite b =>
      have hhigh : v.toInt ≤ b.toInt := hhigh
      simp only [magnitude]
      omega

theorem nonneg_of_mem (hv : v.toInt ∈ iv) (hlow : ¬ iv.low < .finite 0) : 0 ≤ v.toInt :=
  hv.1.of_le (Decidable.not_not.mp hlow)

/-! ## Digits -/

theorem contains_hexDigits_of_mem_toDigits :
    ∀ c ∈ Nat.toDigits 16 n, CharClass.hexDigits.contains c = true := by
  induction n using Nat.strongRecOn with
  | ind n ih =>
    intro c hc
    rw [Nat.toDigits_eq_if (by decide)] at hc
    split at hc
    · next hsmall =>
      obtain rfl := List.mem_singleton.mp hc
      exact CharClass.contains_hexDigits_digitChar n hsmall
    · next hlarge =>
      rcases List.mem_append.mp hc with hc | hc
      · exact ih (n / 16) (by omega) c hc
      · obtain rfl := List.mem_singleton.mp hc
        exact CharClass.contains_hexDigits_digitChar (n % 16) (Nat.mod_lt n (by decide))

/-! ## Renderings -/

/-- The text has characters of the charset only, and no more of them than a length that is named. -/
structure Confines (g : TextGuarantee) (s : String) : Prop where
  chars : ∀ c ∈ s.toList, g.charset.possible.contains c = true
  length : ∃ m, g.maxLength = some m ∧ s.length ≤ m

/-- From zero on an integer is written with digits. -/
theorem toList_toString_of_nonneg {z : Int} (hz : 0 ≤ z) :
    (toString z).toList = Nat.toDigits 10 z.natAbs := by
  rcases Json.toList_toString_cases z with ⟨-, hlist⟩ | ⟨hneg, -⟩
  · rw [hlist, show z.toNat = z.natAbs by omega]
  · omega

/-- Below zero it has a sign in front. -/
theorem toList_toString_of_neg {z : Int} (hz : z < 0) :
    (toString z).toList = '-' :: Nat.toDigits 10 z.natAbs := by
  rcases Json.toList_toString_cases z with ⟨hpos, -⟩ | ⟨-, hlist⟩
  · omega
  · rw [hlist, show (-z).toNat = z.natAbs by omega]

theorem ofInteger_decimal (hv : v.toInt ∈ iv) :
    ofInteger iv 10 =
      if iv.low < .finite 0 then
        { charset := .format (CharClass.digits.union (.ofText "-")) none
          maxLength := some (digitCount 10 (max (magnitude iv.low) (magnitude iv.high)) + 1) }
      else
        { charset := .digits
          maxLength := some (digitCount 10 (max (magnitude iv.low) (magnitude iv.high))) } := by
  simp [ofInteger, Interval.isEmpty_eq_false_of_mem hv]

theorem ofInteger_hexadecimal (hv : v.toInt ∈ iv) :
    ofInteger iv 16 =
      { charset := .hexDigits
        maxLength := some (if iv.low < .finite 0 then 16
          else digitCount 16 (max (magnitude iv.low) (magnitude iv.high))) } := by
  simp [ofInteger, Interval.isEmpty_eq_false_of_mem hv]

/-- The sign is allowed for where a member may have one. -/
theorem confines_decimal (hv : v.toInt ∈ iv) : (ofInteger iv 10).Confines (toString v.toInt) := by
  have hcount := length_toDigits_le_digitCount (show 1 < 10 by decide) (natAbs_le_widest hv)
  have hdigits (c : Char) (hc : c ∈ Nat.toDigits 10 v.toInt.natAbs) :
      CharClass.digits.contains c = true :=
    CharClass.contains_digits (Json.isDigit_of_mem_toDigits _ c hc)
  rw [ofInteger_decimal hv]
  split
  case isTrue hlow =>
    have hsign : (CharClass.digits.union (.ofText "-")).contains '-' = true := by decide
    have hunion (c : Char) (hc : c ∈ Nat.toDigits 10 v.toInt.natAbs) :
        (CharClass.digits.union (.ofText "-")).contains c = true := by
      rw [CharClass.contains_union, hdigits c hc, Bool.true_or]
    rcases Int.lt_or_le v.toInt 0 with hneg | hpos
    · have hlist := toList_toString_of_neg hneg
      refine ⟨fun c hc => ?_, _, rfl, ?_⟩
      · rcases List.mem_cons.mp (hlist ▸ hc) with rfl | hc
        · exact hsign
        · exact hunion c hc
      · rw [← String.length_toList, hlist, List.length_cons]
        omega
    · have hlist := toList_toString_of_nonneg hpos
      refine ⟨fun c hc => ?_, _, rfl, ?_⟩
      · exact hunion c (hlist ▸ hc)
      · rw [← String.length_toList, hlist]
        omega
  case isFalse hlow =>
    have hlist := toList_toString_of_nonneg (nonneg_of_mem hv hlow)
    refine ⟨fun c hc => hdigits c (hlist ▸ hc), _, rfl, ?_⟩
    rw [← String.length_toList, hlist]
    exact hcount

/-- A word from zero on is its own two's complement. -/
theorem toNat_toUInt64_of_nonneg (hv : 0 ≤ v.toInt) : v.toUInt64.toNat = v.toInt.natAbs := by
  have hword := BitVec.toInt_eq_toNat_cond v.toBitVec
  have hlt := v.toBitVec.isLt
  rw [Int64.toInt_toBitVec, Int64.toNat_toBitVec] at hword
  rw [Int64.toNat_toBitVec] at hlt
  split at hword <;> omega

/-- Sixteen digits are enough for every word, and a word from zero on is its own magnitude. -/
theorem confines_hexText (hv : v.toInt ∈ iv) : (ofInteger iv 16).Confines (Text.hexText v) := by
  rw [ofInteger_hexadecimal hv, Text.hexText]
  refine ⟨fun c hc => ?_, _, rfl, ?_⟩
  · rw [String.toList_ofList] at hc
    exact contains_hexDigits_of_mem_toDigits c hc
  · rw [String.length_ofList]
    split
    case isTrue hlow =>
      rw [Nat.length_toDigits_le_iff (by decide) (by decide)]
      exact v.toUInt64.toNat_lt
    case isFalse hlow =>
      rw [toNat_toUInt64_of_nonneg (nonneg_of_mem hv hlow)]
      exact length_toDigits_le_digitCount (by decide) (natAbs_le_widest hv)

/-! ## The way back -/

theorem mem_parsed_ofInteger {type : IntType} (hv : v.toInt ∈ iv) (htype : type.Holds v.toInt) :
    v.toInt ∈ (ofInteger iv 10).parsed type := by
  by_cases hlow : iv.low < .finite 0
  · refine mem_parsed_of_ne_digits ?_ ?_ htype <;> simp [ofInteger_decimal hv, hlow]
  · have hlength : ∀ m ∈ (ofInteger iv 10).maxLength, (toString v.toInt).length ≤ m := by
      obtain ⟨m, hm, hle⟩ := (confines_decimal hv).length
      intro k hk
      obtain rfl := Option.some.inj (hm.symm.trans hk)
      exact hle
    refine (mem_parsed_of_digits ?_ ?_ hlength (Text.integer?_toString v.toInt) htype).mpr
      (nonneg_of_mem hv hlow) <;> simp [ofInteger_decimal hv, hlow]

/-- Every integer of an interval is written within the guarantee of the interval in both radices,
and whichever type it is read back into, the interval of the reading holds it. -/
theorem ofInteger_confines_renderings (hv : v.toInt ∈ iv) :
    (ofInteger iv 10).Confines (toString v.toInt) ∧ (ofInteger iv 16).Confines (Text.hexText v) ∧
      ∀ type : IntType, type.Holds v.toInt → v.toInt ∈ (ofInteger iv 10).parsed type :=
  ⟨confines_decimal hv, confines_hexText hv, fun _ htype => mem_parsed_ofInteger hv htype⟩

/-- The least word has no positive counterpart of its own type, and its numeral is the longest. -/
theorem ofInteger_confines_least_word :
    Int64.minValue.toInt ∈ Interval.atMost 0 ∧
      (ofInteger (.atMost 0) 10).Confines "-9223372036854775808" ∧
      (ofInteger (.atMost 0) 16).Confines "8000000000000000" ∧
      Int64.minValue.toInt ∈ (ofInteger (.atMost 0) 10).parsed .i64 := by
  have hmem : Int64.minValue.toInt ∈ Interval.atMost 0 := by decide
  obtain ⟨hdecimal, hhex, hback⟩ := ofInteger_confines_renderings hmem
  exact ⟨hmem, hdecimal, hhex, hback .i64 (by decide)⟩

end TextGuarantee

end FlowSafety
