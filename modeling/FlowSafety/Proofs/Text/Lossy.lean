import FlowSafety.Proofs.Charset.CharClass
import FlowSafety.Text.Lossy
import Mathlib.Data.List.Basic

/-!
# Bytes and the characters they are read as

No byte gets lost when bytes are read as a text, even where they are not the encoding of one: for a
byte of ASCII its character is among those that are read, and for any other byte there is one beyond
ASCII, be it the replacement character.

The reading takes the bytes behind the first one of a character as long as they go on with it, and
all of these are beyond ASCII. That is the invariant of the induction, since a character beyond
ASCII has then been read for them already.

* `following_spec` — the bytes that go on with a character
* `frontChar_wide` — the character of a first byte beyond ASCII
* `exists_mem_lossyChars` — every byte is stood for
-/

namespace FlowSafety.Text

variable {b first : UInt8} {bytes more : List UInt8} {count least most taken : Nat}

/-- The character stands for the byte: it is the same character of ASCII, or both are beyond. -/
structure StandsFor (c : Char) (b : UInt8) : Prop where
  ascii : b.toNat < 128 → c.toNat = b.toNat
  wide : 128 ≤ b.toNat → 128 ≤ c.toNat

/-! ## The bytes of a character -/

/-- The bytes that go on with a character are the next ones, and are beyond ASCII. -/
theorem following_spec (hleast : 128 ≤ least) :
    following count least most bytes <+: bytes ∧
      ∀ b ∈ following count least most bytes, 128 ≤ b.toNat := by
  induction bytes generalizing count least most with
  | nil => cases count <;> simp [following]
  | cons b bytes ih =>
    cases count with
    | zero => simp [following]
    | succ count =>
      rw [following]
      split
      · next hb =>
        obtain ⟨hnext, hwide⟩ := @ih count 0x80 0xBF (by decide)
        refine ⟨List.cons_prefix_cons.mpr ⟨rfl, hnext⟩, ?_⟩
        exact List.forall_mem_cons.mpr ⟨Nat.le_trans hleast hb.1, hwide⟩
      · exact ⟨List.nil_prefix, fun _ hb => absurd hb List.not_mem_nil⟩

/-- The first of them lies between the bounds. -/
theorem bounds_of_following (h : following count least most bytes = b :: more) :
    least ≤ b.toNat ∧ b.toNat ≤ most := by
  cases count with
  | zero => cases h
  | succ count =>
    cases bytes with
    | nil => cases h
    | cons b' bytes =>
      rw [following] at h
      split at h
      · next hb =>
        cases h
        exact hb
      · cases h

/-- The first bytes beyond ASCII that begin a character, by how many bytes it has behind them. -/
theorem tail?_cases {first : Nat} (hfirst : 128 ≤ first)
    (h : tail? first = some (count, least, most)) :
    (0x80 ≤ least ∧ most ≤ 0xBF) ∧
      ((count = 1 ∧ 0xC2 ≤ first ∧ first < 0xE0) ∨
        (count = 2 ∧ (0xE0 ≤ first ∧ first < 0xF0) ∧ (first = 0xE0 → 0xA0 ≤ least) ∧
          (first = 0xED → most ≤ 0x9F)) ∨
        (count = 3 ∧ (0xF0 ≤ first ∧ first < 0xF5) ∧ (first = 0xF0 → 0x90 ≤ least) ∧
          (first = 0xF4 → most ≤ 0x8F))) := by
  unfold tail? at h
  rw [if_neg (by omega)] at h
  split at h
  · contradiction
  · split at h
    · cases h
      omega
    · split at h
      · cases h
        split <;> split <;> omega
      · split at h
        · cases h
          split <;> split <;> omega
        · contradiction

/-! ## Whole characters -/

theorem codeOf_two (hfirst : 0xC2 ≤ first.toNat ∧ first.toNat < 0xE0) :
    128 ≤ codeOf first.toNat [b] ∧ (codeOf first.toNat [b]).isValidChar := by
  simp only [codeOf, List.isEmpty_cons, Bool.false_eq_true, if_false, List.length_singleton,
    List.foldl_cons, List.foldl_nil, Nat.reduceShiftRight, Nat.isValidChar]
  omega

theorem codeOf_three {b' : UInt8} (hfirst : 0xE0 ≤ first.toNat ∧ first.toNat < 0xF0)
    (hcontinues : 0x80 ≤ b.toNat ∧ b.toNat ≤ 0xBF) (hshort : first.toNat = 0xE0 → 0xA0 ≤ b.toNat)
    (hsurrogate : first.toNat = 0xED → b.toNat ≤ 0x9F) :
    128 ≤ codeOf first.toNat [b, b'] ∧ (codeOf first.toNat [b, b']).isValidChar := by
  simp only [codeOf, List.isEmpty_cons, Bool.false_eq_true, if_false, List.length_cons,
    List.length_nil, List.foldl_cons, List.foldl_nil, Nat.reduceShiftRight, Nat.reduceAdd,
    Nat.isValidChar]
  omega

theorem codeOf_four {b' b'' : UInt8} (hfirst : 0xF0 ≤ first.toNat ∧ first.toNat < 0xF5)
    (hcontinues : 0x80 ≤ b.toNat ∧ b.toNat ≤ 0xBF) (hshort : first.toNat = 0xF0 → 0x90 ≤ b.toNat)
    (hlast : first.toNat = 0xF4 → b.toNat ≤ 0x8F) :
    128 ≤ codeOf first.toNat [b, b', b''] ∧ (codeOf first.toNat [b, b', b'']).isValidChar := by
  simp only [codeOf, List.isEmpty_cons, Bool.false_eq_true, if_false, List.length_cons,
    List.length_nil, List.foldl_cons, List.foldl_nil, Nat.reduceShiftRight, Nat.reduceAdd,
    Nat.isValidChar]
  omega

/-- A whole character that is longer than a byte has a code beyond ASCII. -/
theorem codeOf_spec (hfirst : 128 ≤ first.toNat)
    (htail : tail? first.toNat = some (count, least, most))
    (hmore : (following count least most bytes).length = count) :
    128 ≤ codeOf first.toNat (following count least most bytes) ∧
      (codeOf first.toNat (following count least most bytes)).isValidChar := by
  obtain ⟨hbounds, hcases⟩ := tail?_cases hfirst htail
  generalize hlist : following count least most bytes = more at hmore ⊢
  rcases hcases with ⟨rfl, hfirst⟩ | ⟨rfl, hfirst, hshort, hsurrogate⟩ |
    ⟨rfl, hfirst, hshort, hlast⟩
  · obtain ⟨b, rfl⟩ := List.length_eq_one_iff.mp hmore
    exact codeOf_two hfirst
  · obtain ⟨b, b', rfl⟩ := List.length_eq_two.mp hmore
    obtain ⟨hlow, hhigh⟩ := bounds_of_following hlist
    exact codeOf_three hfirst (by omega) (by omega) (by omega)
  · obtain ⟨b, b', b'', rfl⟩ := List.length_eq_three.mp hmore
    obtain ⟨hlow, hhigh⟩ := bounds_of_following hlist
    exact codeOf_four hfirst (by omega) (by omega) (by omega)

/-! ## Reading on -/

theorem frontChar_ascii (hfirst : first.toNat < 128) :
    frontChar first bytes = (Char.ofNat first.toNat, 0) := by
  have htail : tail? first.toNat = some (0, 0x80, 0xBF) := if_pos hfirst
  have hnone : following 0 0x80 0xBF bytes = [] := by cases bytes <;> rfl
  simp [frontChar, htail, hnone, codeOf]

theorem frontChar_wide (hfirst : 128 ≤ first.toNat) :
    128 ≤ (frontChar first bytes).1.toNat ∧
      ∀ b ∈ bytes.take (frontChar first bytes).2, 128 ≤ b.toNat := by
  unfold frontChar
  split
  · exact ⟨by decide, by simp⟩
  · next count least most htail =>
    obtain ⟨hnext, hwide⟩ :=
      @following_spec bytes count least most (tail?_cases hfirst htail).1.1
    refine ⟨?_, ?_⟩
    · dsimp only
      split
      · next hmore =>
        obtain ⟨hcode, hvalid⟩ := codeOf_spec hfirst htail hmore
        rw [CharClass.toNat_ofNat hvalid]
        exact hcode
      · decide
    · dsimp only
      rw [← List.prefix_iff_eq_take.mp hnext]
      exact hwide

theorem standsFor_frontChar : StandsFor (frontChar first bytes).1 first where
  ascii := by
    intro hfirst
    rw [frontChar_ascii hfirst]
    exact CharClass.toNat_ofNat_ascii hfirst
  wide := fun hfirst => (frontChar_wide hfirst).1

/-- Every byte is stood for by a character, other than those that the character before has taken. -/
theorem exists_mem_charsAfter (hb : b ∈ bytes) :
    b ∈ bytes.take taken ∨ ∃ c ∈ charsAfter taken bytes, StandsFor c b := by
  induction bytes generalizing taken with
  | nil => exact absurd hb List.not_mem_nil
  | cons first bytes ih =>
    cases taken with
    | succ taken =>
      rw [List.take_succ_cons, charsAfter]
      rcases List.mem_cons.mp hb with rfl | hb
      · exact .inl List.mem_cons_self
      · exact (ih hb).imp_left (List.mem_cons_of_mem first)
    | zero =>
      right
      rw [charsAfter]
      rcases List.mem_cons.mp hb with rfl | hb
      · exact ⟨_, List.mem_cons_self, standsFor_frontChar⟩
      · rcases @ih (frontChar first bytes).2 hb with htaken | ⟨c, hc, hstands⟩
        · -- what the character at the front has taken it stands for itself
          have hfirst : 128 ≤ first.toNat := by
            by_contra hascii
            rw [frontChar_ascii (by omega)] at htaken
            simp at htaken
          obtain ⟨hwide, htail⟩ := @frontChar_wide first bytes hfirst
          have hb := htail b htaken
          exact ⟨_, List.mem_cons_self, fun h => absurd h (by omega), fun _ => hwide⟩
        · exact ⟨c, List.mem_cons_of_mem _ hc, hstands⟩

/-- Every byte is stood for by one of the characters that are read. -/
theorem exists_mem_lossyChars (hb : b ∈ bytes) : ∃ c ∈ lossyChars bytes, StandsFor c b := by
  rcases @exists_mem_charsAfter b bytes 0 hb with h | h
  · simp at h
  · exact h

end FlowSafety.Text
