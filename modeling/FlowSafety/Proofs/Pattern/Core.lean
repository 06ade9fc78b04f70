import FlowSafety.Proofs.Charset.CharClass
import FlowSafety.Proofs.Pattern.CodeSet
import FlowSafety.Proofs.Pattern.Search

/-!
# Patterns in their simple form

`Core.ofSet`, `Core.repeated` and `Core.inRow` change a pattern while they build it, but not what it
takes. They rely on literals that are whole characters, and on classes that are characters of their
domain: `Core.IsText`, which they keep.

* `takes_literal` — the characters that a literal takes
* `takes_ofSet`, `takes_repeated`, `inRow_spec` — what a built pattern takes
-/

namespace FlowSafety.Pattern

variable {text : Array Char} {i j : Nat}

/-! ## Literals -/

/-- The bytes of some characters. -/
def encoded (cs : List Char) : List UInt8 := cs.flatMap String.utf8EncodeChar

theorem encode_inj {c d : Char} {a b : List UInt8}
    (h : String.utf8EncodeChar c ++ a = String.utf8EncodeChar d ++ b) : c = d ∧ a = b := by
  have hc := @ByteArray.utf8DecodeChar?_utf8EncodeChar_append a.toByteArray c
  have hd := @ByteArray.utf8DecodeChar?_utf8EncodeChar_append b.toByteArray d
  rw [← List.toByteArray_append, h, List.toByteArray_append, hd] at hc
  obtain rfl := Option.some.inj hc
  exact ⟨rfl, List.append_cancel_left h⟩

theorem takenBy_cons {bytes : List UInt8} {c : Char} {cs : List Char} (h : bytes ≠ []) :
    takenBy bytes (c :: cs) =
      if (String.utf8EncodeChar c).isPrefixOf bytes then
        (takenBy (bytes.drop (String.utf8EncodeChar c).length) cs).map (· + 1)
      else none := by
  cases bytes with
  | nil => contradiction
  | cons b bytes => rw [takenBy]

theorem takenBy_encoded {cs ds : List Char} :
    takenBy (encoded cs) ds = if cs.isPrefixOf ds then some cs.length else none := by
  induction cs generalizing ds with
  | nil =>
    rw [show encoded [] = [] from rfl, takenBy]
    simp
  | cons c cs ih =>
    have hcons : encoded (c :: cs) = String.utf8EncodeChar c ++ encoded cs := List.flatMap_cons
    have hne : encoded (c :: cs) ≠ [] := by
      rw [hcons]
      exact List.append_ne_nil_of_left_ne_nil String.utf8EncodeChar_ne_nil _
    cases ds with
    | nil =>
      obtain ⟨b, bytes, hb⟩ := List.exists_cons_of_ne_nil hne
      rw [hb, takenBy]
      · simp
      · simp
    | cons d ds =>
      rw [takenBy_cons hne]
      by_cases hcd : d = c
      · subst hcd
        have hprefix : (String.utf8EncodeChar d).isPrefixOf (encoded (d :: cs)) = true := by
          rw [List.isPrefixOf_iff_prefix, hcons]
          exact List.prefix_append _ _
        rw [if_pos hprefix, hcons, List.drop_left, ih, List.isPrefixOf_cons_cons_self]
        split <;> rfl
      · have hprefix : ¬ (String.utf8EncodeChar d).isPrefixOf (encoded (c :: cs)) = true := by
          rw [List.isPrefixOf_iff_prefix, hcons]
          rintro ⟨rest, hrest⟩
          exact hcd (encode_inj hrest).1
        rw [if_neg hprefix, List.isPrefixOf_cons_cons]
        simp [Ne.symm hcd]

/-- A literal takes the characters that it is the encoding of. -/
theorem takes_literal {cs : List Char} :
    (Core.literal (encoded cs)).Takes text i j ↔
      cs <+: text.toList.drop i ∧ j = i + cs.length := by
  simp only [Core.Takes, takenBy_encoded, Option.ite_none_right_eq_some, Option.some.injEq,
    List.isPrefixOf_iff_prefix]
  constructor
  · rintro ⟨n, ⟨h, rfl⟩, rfl⟩
    exact ⟨h, rfl⟩
  · rintro ⟨h, rfl⟩
    exact ⟨_, ⟨h, rfl⟩, rfl⟩

theorem singleton_prefix_iff {c : Char} : [c] <+: text.toList.drop i ↔ text[i]? = some c := by
  rw [← Array.getElem?_toList, ← List.head?_drop]
  cases text.toList.drop i with
  | nil => simp
  | cons d ds => simp [List.cons_prefix_cons, eq_comm]

/-- A literal of one character takes this character. -/
theorem takes_char {c : Char} :
    (Core.literal (String.utf8EncodeChar c)).Takes text i j ↔
      Over text (fun d => d = c) i j := by
  rw [show String.utf8EncodeChar c = encoded [c] from (List.append_nil _).symm, takes_literal,
    singleton_prefix_iff]
  simp only [Over, decide_eq_true_eq]
  constructor
  · rintro ⟨h, rfl⟩
    exact ⟨c, h, rfl, rfl⟩
  · rintro ⟨d, h, rfl, rfl⟩
    exact ⟨h, rfl⟩

/-- Literals in a row are one. -/
theorem takes_literal_append {cs ds : List Char} :
    (Core.literal (encoded cs ++ encoded ds)).Takes text i j ↔
      ∃ k, (Core.literal (encoded cs)).Takes text i k ∧
        (Core.literal (encoded ds)).Takes text k j := by
  have happend : encoded cs ++ encoded ds = encoded (cs ++ ds) := List.flatMap_append.symm
  rw [happend]
  simp only [takes_literal]
  constructor
  · rintro ⟨⟨rest, hrest⟩, rfl⟩
    rw [List.append_assoc] at hrest
    refine ⟨i + cs.length, ⟨⟨_, hrest⟩, rfl⟩, ?_, by simp [Nat.add_assoc]⟩
    rw [← List.drop_drop, ← hrest, List.drop_left]
    exact List.prefix_append _ _
  · rintro ⟨k, ⟨⟨rest, hrest⟩, rfl⟩, ⟨rest', hrest'⟩, rfl⟩
    rw [← List.drop_drop, ← hrest, List.drop_left] at hrest'
    refine ⟨⟨rest', ?_⟩, by simp [Nat.add_assoc]⟩
    rw [List.append_assoc, hrest', hrest]

/-! ## Well-formed patterns -/

/-- The ranges of a set begin with codes of its domain; among bytes they are ASCII. -/
def IsDomainSet (d : Domain) (s : CodeSet) : Prop :=
  ∀ r ∈ s.ranges, r.1.isValidChar ∧ r.1 ≤ r.2 ∧ (d = .bytes → r.2 < 128)

mutual

/-- Literals are whole characters, classes are characters, and bounds are in order. -/
def Core.IsText : Core → Prop
  | .empty => True
  | .literal bytes => ∃ cs, bytes = encoded cs
  | .set domain s => IsDomainSet domain s
  | .look _ => True
  | .repetition min max _ sub => (∀ m, max = some m → min ≤ m) ∧ sub.IsText
  | .capture _ sub => sub.IsText
  | .concat items => AreText items
  | .alternation branches => AreText branches

def AreText : List Core → Prop
  | [] => True
  | item :: items => item.IsText ∧ AreText items

end

theorem areText_iff {items : List Core} : AreText items ↔ ∀ h ∈ items, h.IsText := by
  induction items with
  | nil => simp [AreText]
  | cons item items ih => rw [AreText, ih, List.forall_mem_cons]

theorem takesOne_iff {branches : List Core} :
    TakesOne text branches i j ↔ ∃ h ∈ branches, h.Takes text i j := by
  induction branches with
  | nil => simp [TakesOne]
  | cons branch branches ih => simp [TakesOne, ih]

theorem takesAll_append {items items' : List Core} :
    TakesAll text (items ++ items') i j ↔
      ∃ k, TakesAll text items i k ∧ TakesAll text items' k j := by
  induction items generalizing i with
  | nil => simp [TakesAll]
  | cons item items ih =>
    simp only [List.cons_append, TakesAll, ih]
    constructor
    · rintro ⟨k, hk, l, hl, h⟩
      exact ⟨l, ⟨k, hk, hl⟩, h⟩
    · rintro ⟨l, ⟨k, hk, hl⟩, h⟩
      exact ⟨k, hk, l, hl, h⟩

/-! ## Sets -/

theorem isValidChar_of_lt {n : Nat} (h : n < 128) : n.isValidChar := .inl (by omega)

/-- A byte of ASCII is the encoding of its character. -/
theorem bytesOf_eq {d : Domain} {n : Nat} (h : d = .bytes → n < 128) :
    Core.bytesOf d n = String.utf8EncodeChar (Char.ofNat n) := by
  cases d with
  | characters => rfl
  | bytes =>
    have hbytes : ∀ n < 128, [UInt8.ofNat n] = String.utf8EncodeChar (Char.ofNat n) := by
      decide
    exact hbytes n (h rfl)

theorem isMember_iff {d : Domain} {s : CodeSet} (hs : IsDomainSet d s) {c : Char} :
    isMember d s c = s.contains c.toNat := by
  cases d with
  | characters => simp [isMember]
  | bytes =>
    rw [isMember, Bool.eq_iff_iff, Bool.and_eq_true]
    constructor
    · exact And.left
    · intro h
      obtain ⟨r, hr, -, hle⟩ := CodeSet.contains_iff.mp h
      have := (hs r hr).2.2 rfl
      exact ⟨h, by simp only [reduceCtorEq, decide_false, Bool.false_or, decide_eq_true_eq]; omega⟩

theorem over_congr {p q : Char → Bool} (h : ∀ c ∈ text, p c = q c) :
    Over text p i j ↔ Over text q i j := by
  constructor
  · rintro ⟨c, hc, hp, hj⟩
    exact ⟨c, hc, by rwa [← h c (Array.mem_of_getElem? hc)], hj⟩
  · rintro ⟨c, hc, hq, hj⟩
    exact ⟨c, hc, by rwa [h c (Array.mem_of_getElem? hc)], hj⟩

theorem isText_fail : Core.fail.IsText := fun _ hr => (List.not_mem_nil hr).elim

theorem takes_fail : ¬ Core.fail.Takes text i j := by
  rintro ⟨c, -, h, -⟩
  contradiction

theorem CodeSet.ranges_of_single {s : CodeSet} {n : Nat} (h : s.single? = some n) :
    s.ranges = [(n, n)] := by
  unfold single? at h
  split at h
  · rename_i lo hi hranges
    split at h
    · rename_i hle
      cases h
      rw [hranges, hle]
    · contradiction
  · contradiction

theorem isText_ofSet {d : Domain} {s : CodeSet} (hs : IsDomainSet d s) :
    (Core.ofSet d s).IsText := by
  unfold Core.ofSet
  split
  · exact isText_fail
  · split
    · rename_i n hsingle
      have hmem : (n, n) ∈ s.ranges := by
        rw [CodeSet.ranges_of_single hsingle]
        exact List.mem_singleton_self _
      exact ⟨[Char.ofNat n], by
        rw [bytesOf_eq (hs _ hmem).2.2, encoded, List.flatMap_singleton]⟩
    · exact hs

/-- A set takes a member. -/
theorem takes_ofSet {d : Domain} {s : CodeSet} (hs : IsDomainSet d s) :
    (Core.ofSet d s).Takes text i j ↔ Over text (fun c => s.contains c.toNat) i j := by
  unfold Core.ofSet
  split
  · rename_i hempty
    have hnone : ∀ n, s.contains n = false := by
      intro n
      rw [CodeSet.contains, List.isEmpty_iff.mp hempty]
      rfl
    constructor
    · intro h
      exact (takes_fail h).elim
    · rintro ⟨c, -, h, -⟩
      exact absurd (hnone c.toNat ▸ h) Bool.false_ne_true
  · split
    · rename_i n hsingle
      have hranges := CodeSet.ranges_of_single hsingle
      have hmem : (n, n) ∈ s.ranges := by
        rw [hranges]
        exact List.mem_singleton_self _
      obtain ⟨hvalid, -, hbytes⟩ := hs _ hmem
      rw [bytesOf_eq hbytes, takes_char]
      refine over_congr fun c _ => ?_
      rw [Bool.eq_iff_iff, decide_eq_true_eq, CodeSet.contains_iff, hranges, covered_cons,
        covered_nil, or_false, ← Char.toNat_inj, CharClass.toNat_ofNat hvalid]
      simp only
      omega
    · exact over_congr fun c _ => isMember_iff hs

/-! ## Repetitions -/

theorem Iter.idle {r : Nat → Nat → Prop} (hr : ∀ i j, r i j → i = j) {n : Nat} (h : Iter r n i j) :
    i = j := by
  induction n generalizing i with
  | zero => exact h
  | succ n ih =>
    obtain ⟨k, hk, h⟩ := h
    obtain rfl := hr i k hk
    exact ih h

theorem setLength_ne_zero {d : Domain} {s : CodeSet} : Core.setLength d s ≠ some 0 := by
  unfold Core.setLength
  intro h
  obtain ⟨r, -, h⟩ := Option.map_eq_some_iff.mp h
  cases d with
  | bytes => contradiction
  | characters =>
    simp only [Core.utf8Length] at h
    split at h
    · contradiction
    · split at h
      · contradiction
      · split at h <;> contradiction

theorem maxOf_eq_zero {a b : Option Nat} (h : Core.maxOf a b = some 0) :
    a = some 0 ∧ b = some 0 := by
  obtain ⟨m, rfl, h⟩ := Option.bind_eq_some_iff.mp h
  obtain ⟨n, rfl, h⟩ := Option.map_eq_some_iff.mp h
  have := Nat.le_max_left m n
  have := Nat.le_max_right m n
  exact ⟨congrArg some (by omega), congrArg some (by omega)⟩

mutual

/-- What is no byte long takes nothing. -/
theorem Core.idle_of_maxLength : ∀ {h : Core}, h.IsText → h.maxLength = some 0 →
    ∀ i j, h.Takes text i j → i = j
  | .empty, _, _, _, _, h => h
  | .literal bytes, _, hlength, i, j, h => by
    obtain ⟨n, hn, rfl⟩ := h
    have hbytes : bytes = [] := List.length_eq_zero_iff.mp (Option.some.inj hlength)
    rw [hbytes, takenBy] at hn
    cases hn
    rfl
  | .set _ _, _, hlength, _, _, _ => absurd hlength setLength_ne_zero
  | .look _, _, _, _, _, h => h.1
  | .repetition min max _ sub, htext, hlength, i, j, h => by
    simp only [Core.maxLength, Option.bind_eq_some_iff, Size.checked_eq_some_iff] at hlength
    obtain ⟨n, rfl, m, hm, hzero, -⟩ := hlength
    obtain ⟨k, -, hk, h⟩ := h
    rcases Nat.mul_eq_zero.mp hzero with rfl | rfl
    · exact h.idle (Core.idle_of_maxLength htext.2 hm)
    · have hmin : min ≤ 0 := htext.1 0 rfl
      have hk : k ≤ Nat.max min 0 := hk 0 rfl
      rw [Nat.le_zero.mp hmin] at hk
      rw [Nat.le_zero.mp hk] at h
      exact h
  | .capture _ sub, htext, hlength, i, j, h =>
    Core.idle_of_maxLength (h := sub) htext hlength i j h
  | .concat _, htext, hlength, i, j, h => idle_of_totalLength htext hlength i j h
  | .alternation _, htext, hlength, i, j, h => idle_of_greatestLength htext hlength i j h

theorem idle_of_totalLength : ∀ {items : List Core}, AreText items →
    Core.totalLength items = some 0 → ∀ i j, TakesAll text items i j → i = j
  | [], _, _, _, _, h => h
  | item :: items, htext, hlength, i, j, h => by
    obtain ⟨m, hm, hlength⟩ := Option.bind_eq_some_iff.mp hlength
    obtain ⟨n, hn, hlength⟩ := Option.bind_eq_some_iff.mp hlength
    obtain ⟨hzero, -⟩ := Size.checked_eq_some_iff.mp hlength
    obtain ⟨rfl, rfl⟩ : m = 0 ∧ n = 0 := by omega
    obtain ⟨k, hk, h⟩ := h
    obtain rfl := Core.idle_of_maxLength htext.1 hm i k hk
    exact idle_of_totalLength htext.2 hn i j h

theorem idle_of_greatestLength : ∀ {branches : List Core}, AreText branches →
    Core.greatestLength branches = some 0 → ∀ i j, TakesOne text branches i j → i = j
  | [], _, _, _, _, h => h.elim
  | [branch], htext, hlength, i, j, h => by
    rcases h with h | h
    · exact Core.idle_of_maxLength htext.1 hlength i j h
    · exact h.elim
  | branch :: branch' :: branches, htext, hlength, i, j, h => by
    obtain ⟨hfirst, hrest⟩ := maxOf_eq_zero hlength
    rcases h with h | h
    · exact Core.idle_of_maxLength htext.1 hfirst i j h
    · exact idle_of_greatestLength htext.2 hrest i j h

end

/-- A pattern that takes nothing may as well be repeated once. -/
theorem iter_once {r : Nat → Nat → Prop} (hr : ∀ i j, r i j → i = j) {n : Nat} :
    Iter r n i j ↔ Iter r (Nat.min n 1) i j := by
  cases n with
  | zero => rfl
  | succ n =>
    rw [show Nat.min (n + 1) 1 = 1 from Nat.min_eq_right (by omega)]
    constructor
    · rintro ⟨k, hk, h⟩
      obtain rfl := hr i k hk
      exact ⟨i, hk, Iter.idle hr h⟩
    · rintro ⟨k, hk, rfl⟩
      obtain rfl := hr i k hk
      have hstay : ∀ m, Iter r m i i := by
        intro m
        induction m with
        | zero => rfl
        | succ m ih => exact ⟨i, hk, ih⟩
      exact hstay (n + 1)

/-- A pattern repeated so many times. -/
def Repeats (r : Nat → Nat → Prop) (min : Nat) (max : Option Nat) (i j : Nat) : Prop :=
  ∃ n, min ≤ n ∧ (∀ m, max = some m → n ≤ m) ∧ Iter r n i j

theorem takes_repetition {min : Nat} {max : Option Nat} {greedy : Bool} {sub : Core}
    (hbounds : ∀ m, max = some m → min ≤ m) :
    (Core.repetition min max greedy sub).Takes text i j ↔
      Repeats (sub.Takes text) min max i j := by
  have hmax : ∀ m, max = some m → Nat.max min m = m := fun m hm => Nat.max_eq_right (hbounds m hm)
  constructor
  · rintro ⟨n, hmin, hn, h⟩
    exact ⟨n, hmin, fun m hm => hmax m hm ▸ hn m hm, h⟩
  · rintro ⟨n, hmin, hn, h⟩
    exact ⟨n, hmin, fun m hm => (hmax m hm).symm ▸ hn m hm, h⟩

/-- The bounds of the repetition of a pattern that takes nothing. -/
def idleMax (max : Option Nat) : Nat := (max.map (Nat.min · 1)).getD 1

theorem repeats_idle {r : Nat → Nat → Prop} (hr : ∀ i j, r i j → i = j) {min : Nat}
    {max : Option Nat} (hbounds : ∀ m, max = some m → min ≤ m) :
    Repeats r min max i j ↔ Repeats r (Nat.min min 1) (some (idleMax max)) i j := by
  have hone : ∀ n, 1 ≤ n → Nat.min n 1 = 1 := fun n hn => Nat.min_eq_right hn
  constructor
  · rintro ⟨n, hmin, hmax, h⟩
    refine ⟨Nat.min n 1, ?_, ?_, (iter_once hr).mp h⟩
    · rcases Nat.eq_zero_or_pos n with rfl | hn
      · exact Nat.le_of_eq (congrArg (Nat.min · 1) (Nat.le_zero.mp hmin))
      · rw [hone n hn]
        exact Nat.min_le_right _ _
    · rintro m hm
      cases hm
      cases max with
      | none => exact Nat.min_le_right _ _
      | some m =>
        rcases Nat.eq_zero_or_pos n with rfl | hn
        · exact Nat.le_trans (Nat.min_le_left _ _) (Nat.zero_le _)
        · apply Nat.le_of_eq
          rw [hone n hn, idleMax, Option.map_some, Option.getD_some,
            hone m (Nat.le_trans hn (hmax m rfl))]
  · rintro ⟨n, hmin, hmax, h⟩
    have hn := hmax _ rfl
    cases n with
    | zero =>
      have hmin : min = 0 := by
        rcases Nat.eq_zero_or_pos min with h | h
        · exact h
        · rw [hone min h] at hmin
          contradiction
      exact ⟨0, by omega, fun m _ => Nat.zero_le m, h⟩
    | succ n =>
      refine ⟨Nat.max min 1, Nat.le_max_left _ _, ?_, ?_⟩
      · rintro m rfl
        refine Nat.max_le.mpr ⟨hbounds m rfl, ?_⟩
        have : Nat.min m 1 ≤ m := Nat.min_le_left _ _
        have : n + 1 ≤ Nat.min m 1 := hn
        omega
      · rw [iter_once hr, hone _ (Nat.le_max_right _ _)]
        rwa [iter_once hr, hone _ (by omega)] at h

/-- A repetition in its simple form. -/
def repetitionOf (min : Nat) (max : Option Nat) (greedy : Bool) (sub : Core) : Core :=
  if min = 0 ∧ max = some 0 then .empty
  else if min = 1 ∧ max = some 1 then sub
  else .repetition min max greedy sub

theorem repeated_eq {min : Nat} {max : Option Nat} {greedy : Bool} {sub : Core} :
    Core.repeated min max greedy sub =
      if sub.maxLength = some 0 then repetitionOf (Nat.min min 1) (some (idleMax max)) greedy sub
      else repetitionOf min max greedy sub := by
  unfold Core.repeated repetitionOf idleMax
  by_cases hlength : sub.maxLength = some 0
  · simp only [hlength, if_true]
  · simp only [hlength, if_false]

section

variable {min : Nat} {max : Option Nat} {greedy : Bool} {sub : Core}

theorem takes_repetitionOf (hbounds : ∀ m, max = some m → min ≤ m) :
    (repetitionOf min max greedy sub).Takes text i j ↔
      Repeats (sub.Takes text) min max i j := by
  unfold repetitionOf
  split
  · rename_i hzero
    obtain ⟨rfl, rfl⟩ := hzero
    constructor
    · intro h
      exact ⟨0, Nat.le_refl 0, fun m _ => Nat.zero_le m, h⟩
    · rintro ⟨n, -, hn, h⟩
      rw [Nat.le_zero.mp (hn 0 rfl)] at h
      exact h
  · split
    · rename_i hone
      obtain ⟨rfl, rfl⟩ := hone
      constructor
      · intro h
        exact ⟨1, Nat.le_refl 1, fun m hm => by cases hm; exact Nat.le_refl 1, j, h, rfl⟩
      · rintro ⟨n, hmin, hn, h⟩
        obtain rfl : n = 1 := Nat.le_antisymm (hn 1 rfl) hmin
        obtain ⟨k, hk, rfl⟩ := h
        exact hk
    · exact takes_repetition hbounds

theorem isText_repetitionOf (hbounds : ∀ m, max = some m → min ≤ m) (hsub : sub.IsText) :
    (repetitionOf min max greedy sub).IsText := by
  unfold repetitionOf
  split
  · trivial
  · split
    · exact hsub
    · exact ⟨hbounds, hsub⟩

theorem idleMax_bounds (hbounds : ∀ m, max = some m → min ≤ m) :
    ∀ m, some (idleMax max) = some m → Nat.min min 1 ≤ m := by
  rintro m hm
  cases hm
  cases max with
  | none => exact Nat.min_le_right _ _
  | some m =>
    exact Nat.le_min.mpr ⟨Nat.le_trans (Nat.min_le_left _ _) (hbounds m rfl), Nat.min_le_right _ _⟩

/-- A repeated pattern takes what the pattern takes several times. -/
theorem takes_repeated (hbounds : ∀ m, max = some m → min ≤ m) (hsub : sub.IsText) :
    (Core.repeated min max greedy sub).Takes text i j ↔ Repeats (sub.Takes text) min max i j := by
  rw [repeated_eq]
  split
  · rename_i hlength
    rw [takes_repetitionOf (idleMax_bounds hbounds),
      repeats_idle (Core.idle_of_maxLength hsub hlength) hbounds]
  · exact takes_repetitionOf hbounds

theorem isText_repeated (hbounds : ∀ m, max = some m → min ≤ m) (hsub : sub.IsText) :
    (Core.repeated min max greedy sub).IsText := by
  rw [repeated_eq]
  split
  · exact isText_repetitionOf (idleMax_bounds hbounds) hsub
  · exact isText_repetitionOf hbounds hsub

end

/-! ## Rows -/

theorem takesAll_prepend {item : Core} {items : List Core} (hitem : item.IsText)
    (hitems : AreText items) :
    TakesAll text (Core.prepend item items) i j ↔ TakesAll text (item :: items) i j := by
  unfold Core.prepend
  split
  · simp [TakesAll, Core.Takes]
  · obtain ⟨cs, rfl⟩ := hitem
    obtain ⟨⟨ds, rfl⟩, -⟩ := hitems
    simp only [TakesAll, takes_literal_append]
    constructor
    · rintro ⟨k, ⟨l, hl, hk⟩, h⟩
      exact ⟨l, hl, k, hk, h⟩
    · rintro ⟨l, hl, k, hk, h⟩
      exact ⟨k, ⟨l, hl, hk⟩, h⟩
  · rfl

theorem areText_prepend {item : Core} {items : List Core} (hitem : item.IsText)
    (hitems : AreText items) : AreText (Core.prepend item items) := by
  unfold Core.prepend
  split
  · exact hitems
  · obtain ⟨cs, rfl⟩ := hitem
    obtain ⟨⟨ds, rfl⟩, hrest⟩ := hitems
    exact ⟨⟨cs ++ ds, List.flatMap_append.symm⟩, hrest⟩
  · exact ⟨hitem, hitems⟩

theorem foldr_prepend {items : List Core} (hitems : AreText items) :
    AreText (items.foldr Core.prepend []) ∧
      ∀ i j, TakesAll text (items.foldr Core.prepend []) i j ↔ TakesAll text items i j := by
  induction items with
  | nil => exact ⟨trivial, fun _ _ => Iff.rfl⟩
  | cons item items ih =>
    obtain ⟨hitem, hitems⟩ := hitems
    obtain ⟨htext, htakes⟩ := ih hitems
    refine ⟨areText_prepend hitem htext, fun i j => ?_⟩
    rw [List.foldr_cons, takesAll_prepend hitem htext]
    simp only [TakesAll, htakes]

theorem takesAll_itemsOf {h : Core} : TakesAll text h.itemsOf i j ↔ h.Takes text i j := by
  unfold Core.itemsOf
  split
  · rfl
  · simp [TakesAll]

theorem areText_itemsOf {h : Core} (htext : h.IsText) : AreText h.itemsOf := by
  unfold Core.itemsOf
  split
  · exact htext
  · exact ⟨htext, trivial⟩

theorem areText_append {items items' : List Core} (h : AreText items) (h' : AreText items') :
    AreText (items ++ items') := by
  rw [areText_iff] at h h' ⊢
  exact List.forall_mem_append.mpr ⟨h, h'⟩

theorem flatMap_itemsOf {items : List Core} (hitems : AreText items) :
    AreText (items.flatMap Core.itemsOf) ∧
      ∀ i j, TakesAll text (items.flatMap Core.itemsOf) i j ↔ TakesAll text items i j := by
  induction items with
  | nil => exact ⟨trivial, fun _ _ => Iff.rfl⟩
  | cons item items ih =>
    obtain ⟨hitem, hitems⟩ := hitems
    obtain ⟨htext, htakes⟩ := ih hitems
    rw [List.flatMap_cons]
    refine ⟨areText_append (areText_itemsOf hitem) htext, fun i j => ?_⟩
    simp only [takesAll_append, takesAll_itemsOf, htakes, TakesAll]

/-- Some patterns in a row take what they take one after the other. -/
theorem inRow_spec {items : List Core} (hitems : AreText items) :
    (Core.inRow items).IsText ∧
      ∀ i j, (Core.inRow items).Takes text i j ↔ TakesAll text items i j := by
  obtain ⟨hflat, hflatTakes⟩ := @flatMap_itemsOf text items hitems
  obtain ⟨htext, htakes⟩ := @foldr_prepend text _ hflat
  have hspec : ∀ i j, TakesAll text ((items.flatMap Core.itemsOf).foldr Core.prepend []) i j ↔
      TakesAll text items i j := fun i j => (htakes i j).trans (hflatTakes i j)
  unfold Core.inRow
  generalize (items.flatMap Core.itemsOf).foldr Core.prepend [] = row at htext hspec
  split
  · exact ⟨trivial, hspec⟩
  · refine ⟨htext.1, fun i j => ?_⟩
    rw [← hspec]
    simp [TakesAll]
  · exact ⟨htext, hspec⟩

end FlowSafety.Pattern
