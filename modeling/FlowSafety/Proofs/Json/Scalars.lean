import Mathlib.Data.List.TakeWhile
import FlowSafety.Json.Decode

/-!
# Texts and numbers in JSON

A text is written with escapes for what cannot stand between quotes, and a number as a decimal
numeral. Both are read back as what they were: by the scanner, which finds where they end, and by
the readers of their values.

* `unescape_escape` — a text is read back from its escaped form
* `Token.stringContent_escape` — the scanner finds the quote that ends it
* `Token.isNumber_numeral` — the scanner takes a numeral for a number
* `nat?_ofNat`, `int64?_ofInt` — its value is read back
-/

namespace FlowSafety.Json

/-! ## Characters -/

/-- A character below 32, which only an escape by its code can stand for, is made of its digits. -/
theorem hexValue?_lowerHexDigit {n : Nat} (h : n < 16) : hexValue? (lowerHexDigit n) = some n := by
  have hall : ∀ n < 16, hexValue? (lowerHexDigit n) = some n := by decide
  exact hall n h

theorem unit?_of_control {c : Char} (h : c.toNat < 32) :
    unit? '0' '0' (lowerHexDigit (c.toNat / 16)) (lowerHexDigit (c.toNat % 16)) =
      some c.toNat := by
  have hzero : hexValue? '0' = some 0 := by decide
  simp only [unit?, hzero, hexValue?_lowerHexDigit (show c.toNat / 16 < 16 by omega),
    hexValue?_lowerHexDigit (show c.toNat % 16 < 16 by omega), Option.bind_some, Option.map_some,
    Option.some.injEq]
  omega

/-- A character stands for itself, is escaped by a letter, or by its code. -/
theorem escapeChar_cases (c : Char) :
    (∃ letter, escapeChar c = ['\\', letter] ∧ simpleEscape? letter = some c) ∨
      (c.toNat < 32 ∧ escapeChar c = ['\\', 'u', '0', '0', lowerHexDigit (c.toNat / 16),
        lowerHexDigit (c.toNat % 16)]) ∨
      (escapeChar c = [c] ∧ c ≠ '"' ∧ c ≠ '\\' ∧ ¬ c.toNat < 32) := by
  unfold escapeChar
  split
  · exact Or.inl ⟨_, rfl, rfl⟩
  · exact Or.inl ⟨_, rfl, rfl⟩
  · exact Or.inl ⟨_, rfl, rfl⟩
  · exact Or.inl ⟨_, rfl, rfl⟩
  · exact Or.inl ⟨_, rfl, rfl⟩
  · exact Or.inl ⟨_, rfl, rfl⟩
  · exact Or.inl ⟨_, rfl, rfl⟩
  · next hquote hbackslash _ _ _ _ _ =>
    split
    · next hcontrol => exact Or.inr (Or.inl ⟨hcontrol, rfl⟩)
    · next hcontrol =>
      exact Or.inr (Or.inr ⟨rfl, fun he => hquote he, fun he => hbackslash he, hcontrol⟩)

/-- The letter `u` announces a code and stands for nothing by itself. -/
theorem ne_u_of_simpleEscape? {letter c : Char} (h : simpleEscape? letter = some c) :
    letter ≠ 'u' := by
  rintro rfl
  simp [simpleEscape?] at h

/-! ## Texts -/

theorem unescapeChars_escapeChar (c : Char) (rest : List Char) :
    unescapeChars (escapeChar c ++ rest) = (unescapeChars rest).map (c :: ·) := by
  rcases escapeChar_cases c with ⟨letter, hc, hletter⟩ | ⟨hcontrol, hc⟩ | ⟨hc, _, hback, _⟩
  · have hu := ne_u_of_simpleEscape? hletter
    rw [hc]
    simp [unescapeChars, hletter, hu]
  · have hhigh : isHighSurrogate c.toNat = false := by simp [isHighSurrogate]; omega
    have hlow : isLowSurrogate c.toNat = false := by simp [isLowSurrogate]; omega
    rw [hc]
    -- an escape by code may follow; this one is no half of a pair with it
    by_cases hnext : ∃ a b d e after, rest = '\\' :: 'u' :: a :: b :: d :: e :: after
    · obtain ⟨a, b, d, e, after, rfl⟩ := hnext
      simp [unescapeChars, unit?_of_control hcontrol, hhigh, hlow]
    · simp only [List.cons_append, List.nil_append]
      rw [unescapeChars.eq_3 _ _ _ _ _ fun a b d e after he => hnext ⟨a, b, d, e, after, he⟩]
      simp [unit?_of_control hcontrol, hhigh, hlow]
  · rw [hc]
    simp [unescapeChars, hback]

theorem unescapeChars_flatMap_escapeChar (cs : List Char) :
    unescapeChars (cs.flatMap escapeChar) = some cs := by
  induction cs with
  | nil => rfl
  | cons c cs ih => simp [unescapeChars_escapeChar, ih]

/-- A text is read back from its escaped form. -/
@[simp] theorem unescape_escape (s : String) : unescape (escape s) = some s := by
  simp [unescape, escape, unescapeChars_flatMap_escapeChar]

@[simp] theorem text?_ofText (s : String) : text? (ofText s) = some s := unescape_escape s

@[simp] theorem choice?_ofText (s : String) : choice? (ofText s) = some (s, none) := by
  simp [choice?, ofText]

namespace Token

theorem isHex_lowerHexDigit {n : Nat} (h : n < 16) : isHex (lowerHexDigit n) = true := by
  simp [isHex, hexValue?_lowerHexDigit h]

theorem stringContent_escapeChar (c : Char) (rest : List Char) :
    stringContent (escapeChar c ++ rest) =
      (stringContent rest).map fun r => (escapeChar c ++ r.1, r.2) := by
  rcases escapeChar_cases c with ⟨letter, hc, hletter⟩ | ⟨hcontrol, hc⟩ | ⟨hc, _, hback, hn⟩
  · have hu := ne_u_of_simpleEscape? hletter
    rw [hc]
    simp [stringContent, hletter, hu]
  · have hzero : isHex '0' = true := by decide
    rw [hc]
    simp [stringContent, hzero, isHex_lowerHexDigit (show c.toNat / 16 < 16 by omega),
      isHex_lowerHexDigit (show c.toNat % 16 < 16 by omega)]
  · rw [hc]
    simp [stringContent, hback, hn]

/-- The scanner finds the quote that ends a text. -/
theorem stringContent_escape (s : String) (rest : List Char) :
    stringContent ((escape s).toList ++ '"' :: rest) = some ((escape s).toList, rest) := by
  simp only [escape, String.toList_ofList]
  induction s.toList with
  | nil => rfl
  | cons c cs ih => simp [stringContent_escapeChar, ih]

end Token

/-! ## Numerals -/

theorem foldl_toDigits (n : Nat) :
    (Nat.toDigits 10 n).foldl (fun n c => 10 * n + (c.toNat - 48)) 0 = n :=
  Nat.ofDigitChars_toDigits (by decide) (by decide)

theorem isDigit_of_mem_toDigits (n : Nat) : ∀ c ∈ Nat.toDigits 10 n, c.isDigit = true :=
  fun _ hc => Nat.isDigit_of_mem_toDigits (by decide) (by decide) hc

/-- The numeral of an integer is that of its size, behind a sign if the integer is negative. -/
theorem toList_toString_cases (z : Int) :
    (0 ≤ z ∧ (toString z).toList = Nat.toDigits 10 z.toNat) ∨
      (z < 0 ∧ (toString z).toList = '-' :: Nat.toDigits 10 (-z).toNat) := by
  rw [Int.toString_eq_repr, Int.repr_eq_if]
  by_cases hz : 0 ≤ z
  · exact Or.inl ⟨hz, by simp [hz]⟩
  · exact Or.inr ⟨by omega, by simp [hz]⟩

/-- The value of a numeral is read back if it is within the limit. -/
theorem nat?_toDigits {limit n : Nat} (h : n ≤ limit) {literal : String}
    (hliteral : literal.toList = Nat.toDigits 10 n) : nat? limit (.number literal) = some n := by
  have hall : literal.toList.all Char.isDigit = true :=
    List.all_eq_true.mpr (hliteral ▸ isDigit_of_mem_toDigits n)
  have hvalue := foldl_toDigits n
  rw [← hliteral] at hvalue
  simp only [nat?, hall, hvalue, h, if_true]

theorem nat?_ofNat {limit n : Nat} (h : n ≤ limit) : nat? limit (ofNat n) = some n :=
  nat?_toDigits h (by simp)

@[simp] theorem int64?_ofInt (v : Int64) : int64? (ofInt v.toInt) = some v := by
  have hlow : -0x8000000000000000 ≤ v.toInt := Int64.le_toInt v
  have hhigh : v.toInt < 0x8000000000000000 := Int64.toInt_lt v
  rcases toList_toString_cases v.toInt with ⟨hz, hlist⟩ | ⟨hz, hlist⟩
  · have hread : nat? 0x7FFFFFFFFFFFFFFF (.number (toString v.toInt)) = some v.toInt.toNat :=
      nat?_toDigits (by omega) hlist
    have hsign : ∀ cs, (toString v.toInt).toList ≠ '-' :: cs := by
      intro cs hcs
      have hminus : '-' ∈ Nat.toDigits 10 v.toInt.toNat := by rw [← hlist, hcs]; simp
      exact absurd (isDigit_of_mem_toDigits _ _ hminus) (by decide)
    have hvalue : (v.toInt.toNat : Int) = v.toInt := Int.toNat_of_nonneg hz
    -- without a sign the whole numeral is read, which `hsign` says to the match
    simp only [int64?, ofInt, hread]
    show some (Int64.ofInt (v.toInt.toNat : Int)) = some v
    rw [hvalue, Int64.ofInt_toInt]
  · have hread : nat? 0x8000000000000000
        (.number (String.ofList (Nat.toDigits 10 (-v.toInt).toNat))) = some (-v.toInt).toNat :=
      nat?_toDigits (by omega) (by simp)
    have hne : (-v.toInt).toNat ≠ 0 := by omega
    have hvalue : -((-v.toInt).toNat : Int) = v.toInt := by omega
    simp only [int64?, ofInt, hlist, hread, Option.bind_some, hne, if_false, hvalue,
      Int64.ofInt_toInt]

namespace Token

/-- A numeral of several digits does not start with a zero. -/
theorem eq_nil_of_leading_zero {n : Nat} {cs : List Char} (h : Nat.toDigits 10 n = '0' :: cs) :
    cs = [] := by
  induction n using Nat.strongRecOn generalizing cs with
  | ind n ih =>
    rw [Nat.toDigits_eq_if (by decide)] at h
    split at h
    · exact (List.cons.inj h).2.symm
    · next hn =>
      obtain ⟨ds, hds⟩ : ∃ ds, Nat.toDigits 10 (n / 10) = '0' :: ds := by
        cases hdigits : Nat.toDigits 10 (n / 10) with
        | nil => exact absurd hdigits Nat.toDigits_ne_nil
        | cons d ds =>
          rw [hdigits] at h
          exact ⟨ds, by rw [(List.cons.inj h).1]⟩
      have hnil := ih (n / 10) (by omega) hds
      have hzero := foldl_toDigits (n / 10)
      rw [hds, hnil] at hzero
      have : 0 = n / 10 := hzero
      omega

theorem isUnsigned_toDigits (n : Nat) : isUnsigned (Nat.toDigits 10 n) = true := by
  have hdigits := isDigit_of_mem_toDigits n
  cases hlist : Nat.toDigits 10 n with
  | nil => exact absurd hlist Nat.toDigits_ne_nil
  | cons c cs =>
    rw [hlist] at hdigits
    by_cases hc : c = '0'
    · subst hc
      rw [eq_nil_of_leading_zero hlist]
      rfl
    · have hdrop : cs.dropWhile Char.isDigit = [] :=
        List.dropWhile_eq_nil_iff.mpr fun d hd => hdigits d (List.mem_cons_of_mem c hd)
      simp [isUnsigned, hdigits c List.mem_cons_self, hdrop, isFraction]

/-- The scanner takes a numeral for a number. -/
theorem isNumber_numeral (z : Int) : isNumber (toString z).toList = true := by
  rcases toList_toString_cases z with ⟨-, hlist⟩ | ⟨-, hlist⟩
  · have hunsigned := isUnsigned_toDigits z.toNat
    rw [hlist]
    unfold isNumber
    split
    · next cs hcs =>
      have hdigit := isDigit_of_mem_toDigits z.toNat '-' (by simp [hcs])
      exact absurd hdigit (by decide)
    · exact hunsigned
  · rw [hlist]
    exact isUnsigned_toDigits (-z).toNat

theorem isNumberChar_of_mem_numeral (z : Int) :
    ∀ c ∈ (toString z).toList, isNumberChar c = true := by
  have hdigits (n : Nat) : ∀ c ∈ Nat.toDigits 10 n, isNumberChar c = true := by
    intro c hc
    simp [isNumberChar, isDigit_of_mem_toDigits n c hc]
  rcases toList_toString_cases z with ⟨-, hlist⟩ | ⟨-, hlist⟩
  · exact hlist ▸ hdigits z.toNat
  · rw [hlist]
    intro c hc
    rcases List.mem_cons.mp hc with rfl | hc
    · decide
    · exact hdigits _ c hc

end Token

end FlowSafety.Json
