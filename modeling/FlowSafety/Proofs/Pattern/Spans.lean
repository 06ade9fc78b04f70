import FlowSafety.Pattern.Shape
import FlowSafety.Proofs.Charset.Coverage
import FlowSafety.Proofs.Pattern.Core
import FlowSafety.Proofs.Text.Lossy

/-!
# Matches of bytes

`Core.Spans` says which bytes of a text a match of a pattern spans. A character may be put together
from the bytes of several parts of the pattern, so the induction over the pattern is about bytes:
every byte that a match spans shows in the characters of the pattern. A byte of ASCII shows by its
character, any other byte by any character beyond ASCII, since a class has these together or not at
all. Characters come in only at the end, where all bytes of a text show.

* `Text.encode_eq_cons` — the bytes of a character
* `shows_charsOfBytes`, `shows_charsOfByteRange` — the bytes of literals and of classes
* `Core.spans_shows` — the bytes of a match
* `Core.spans_length` — the number of bytes of a match
* `Core.spans_confines` — texts that a match spans
-/

namespace FlowSafety

/-! ## Bytes of characters -/

namespace Text

variable {b : UInt8} {c : Char}

/-- Whether a character may begin with the byte. -/
def isFirstByte (b : UInt8) : Bool := b.toNat < 0x80 || 0xC0 ≤ b.toNat

theorem standsFor_iff :
    StandsFor c b ↔ (b.toNat < 128 → c.toNat = b.toNat) ∧ (128 ≤ b.toNat → 128 ≤ c.toNat) :=
  ⟨fun h => ⟨h.ascii, h.wide⟩, fun h => ⟨h.1, h.2⟩⟩

/-- A character is encoded by a first byte and by others that no character begins with, and stands
for all of them. -/
theorem encode_eq_cons (c : Char) :
    ∃ first more, String.utf8EncodeChar c = first :: more ∧ StandsFor c first ∧
      isFirstByte first = true ∧ ∀ b ∈ more, isFirstByte b = false ∧ StandsFor c b := by
  have hvalid := CharClass.toNat_cases c
  have hval : c.val.toNat = c.toNat := rfl
  simp only [String.utf8EncodeChar, hval]
  -- from one byte to four
  repeat' split
  all_goals
    refine ⟨_, _, rfl, ?_⟩
    simp [standsFor_iff, isFirstByte]
    omega

theorem standsFor_of_mem_encode (hb : b ∈ String.utf8EncodeChar c) : StandsFor c b := by
  obtain ⟨first, more, hencode, hfirst, -, hmore⟩ := encode_eq_cons c
  rw [hencode] at hb
  rcases List.mem_cons.mp hb with rfl | hb
  · exact hfirst
  · exact (hmore b hb).2

/-- A text has as many characters as its encoding has first bytes. -/
theorem countP_encoded (cs : List Char) : (Pattern.encoded cs).countP isFirstByte = cs.length := by
  induction cs with
  | nil => rfl
  | cons c cs ih =>
    obtain ⟨first, more, hencode, -, hfirst, hmore⟩ := encode_eq_cons c
    have hnone : more.countP isFirstByte = 0 := by
      rw [List.countP_eq_zero]
      intro b hb
      simp [(hmore b hb).1]
    rw [show Pattern.encoded (c :: cs) = String.utf8EncodeChar c ++ Pattern.encoded cs from
      List.flatMap_cons, List.countP_append, hencode, List.countP_cons_of_pos hfirst, hnone, ih,
      List.length_cons, Nat.zero_add, Nat.add_comm]

theorem length_le_of_encoded_eq {cs ds : List Char} {front : List UInt8}
    (h : Pattern.encoded cs = front ++ Pattern.encoded ds) :
    cs.length ≤ front.length + ds.length := by
  rw [← countP_encoded cs, ← countP_encoded ds, h, List.countP_append]
  exact Nat.add_le_add_right List.countP_le_length _

end Text

/-! ## Classes of characters -/

namespace CharClass

variable {k k' : CharClass} {b : UInt8} {c : Char}

/-- The class has the character that the byte is in ASCII, or characters beyond ASCII. -/
def Shows (k : CharClass) (b : UInt8) : Prop := k.contains (Char.ofNat b.toNat) = true

theorem toNat_ofNat_byte (b : UInt8) : (Char.ofNat b.toNat).toNat = b.toNat :=
  toNat_ofNat (.inl (by have := b.toNat_lt; omega))

theorem shows_of_standsFor (h : Text.StandsFor c b) : k.Shows b ↔ k.contains c = true := by
  rcases Nat.lt_or_ge b.toNat 128 with hb | hb
  · rw [Shows, ← h.ascii hb, Char.ofNat_toNat]
  · have hbyte : ¬ (Char.ofNat b.toNat).toNat < 128 := by
      rw [toNat_ofNat_byte]
      omega
    rw [Shows, contains_wide_congr hbyte (Nat.not_lt.mpr (h.wide hb))]

theorem shows_of_mem_encode (hb : b ∈ String.utf8EncodeChar c) :
    k.Shows b ↔ k.contains c = true :=
  shows_of_standsFor (Text.standsFor_of_mem_encode hb)

theorem Shows.union_left (h : k.Shows b) : (k.union k').Shows b := by
  rw [Shows, contains_union, h, Bool.true_or]

theorem Shows.union_right (h : k'.Shows b) : (k.union k').Shows b := by
  rw [Shows, contains_union, h, Bool.or_true]

end CharClass

namespace Pattern

open CharClass

variable {b : UInt8} {c : Char} {k : CharClass} {n : Nat}

/-! ## Characters of the leaves -/

/-- Every byte of a literal shows in its characters, even if it is no encoding of a text. -/
theorem shows_charsOfBytes {bytes : List UInt8} (hb : b ∈ bytes) :
    (charsOfBytes bytes).Shows b := by
  obtain ⟨c, hc, hstands⟩ := Text.exists_mem_lossyChars hb
  exact (shows_of_standsFor hstands).mpr (contains_ofList hc)

theorem firstChar_le (h : n ≤ c.toNat) : (firstChar n).toNat ≤ c.toNat := by
  have hvalid := toNat_cases c
  unfold firstChar
  split
  · next hn =>
    rw [toNat_ofNat hn]
    exact h
  · next hn =>
    unfold Nat.isValidChar at hn
    split
    · show 0xE000 ≤ c.toNat
      omega
    · omega

theorem le_lastChar (h : c.toNat ≤ n) : c.toNat ≤ (lastChar n).toNat := by
  have hvalid := toNat_cases c
  unfold lastChar
  split
  · next hn =>
    rw [toNat_ofNat hn]
    exact h
  · next hn =>
    unfold Nat.isValidChar at hn
    split
    · show c.toNat ≤ 0xD7FF
      omega
    · show c.toNat ≤ 0x10FFFF
      omega

theorem contains_chars_of_characters {s : CodeSet} (hc : s.contains c.toNat = true) :
    (Core.set .characters s).chars.contains c = true := by
  obtain ⟨r, hr, hlo, hhi⟩ := CodeSet.contains_iff.mp hc
  exact contains_ofRanges_of_isCovered
    ⟨_, List.mem_map_of_mem hr, firstChar_le hlo, le_lastChar hhi⟩

/-- Every byte of a range shows in its characters. -/
theorem shows_charsOfByteRange {r : Nat × Nat} (hlo : r.1 ≤ b.toNat) (hhi : b.toNat ≤ r.2) :
    (charsOfByteRange r).Shows b := by
  obtain ⟨lo, hi⟩ := r
  have hlo : lo ≤ b.toNat := hlo
  have hhi : b.toNat ≤ hi := hhi
  have hbyte := toNat_ofNat_byte b
  unfold charsOfByteRange
  dsimp only
  rcases Nat.lt_or_ge b.toNat 0x80 with hb | hb
  · have hascii :
        (if lo < 0x80 then CharClass.ofRange (Char.ofNat lo) (Char.ofNat (min hi 0x7F))
          else .empty).Shows b := by
      rw [if_pos (by omega)]
      refine contains_ofRange_of_le ?_ ?_
      · rw [hbyte, toNat_ofNat_ascii (by omega)]
        exact hlo
      · rw [hbyte, toNat_ofNat_ascii (by omega)]
        omega
    split
    · exact hascii
    · split
      · exact hascii.union_left
      · exact hascii.union_left
  · rw [if_neg (by omega)]
    split
    · refine Shows.union_right (contains_ofRange_of_le ?_ ?_)
      · rw [hbyte]
        exact hb
      · exact toNat_le_max _
    · have hstands : Text.StandsFor '\x80' b := ⟨fun h => absurd h (by omega), fun _ => by decide⟩
      exact Shows.union_right ((shows_of_standsFor hstands).mpr (by decide))

theorem shows_foldl_union {α : Type} {as : List α} {f : α → CharClass} :
    (as.foldl (fun k a => k.union (f a)) k).Shows b ↔ k.Shows b ∨ ∃ a ∈ as, (f a).Shows b := by
  induction as generalizing k with
  | nil => simp
  | cons a as ih =>
    rw [List.foldl_cons, ih, List.exists_mem_cons_iff, ← or_assoc]
    simp only [Shows, contains_union, Bool.or_eq_true]

theorem shows_chars_of_bytes {s : CodeSet} (hb : s.contains b.toNat = true) :
    (Core.set .bytes s).chars.Shows b := by
  obtain ⟨r, hr, hlo, hhi⟩ := CodeSet.contains_iff.mp hb
  exact shows_foldl_union.mpr (.inr ⟨r, hr, shows_charsOfByteRange hlo hhi⟩)

/-! ## Matches -/

variable {bytes part : List UInt8} {holds : Look → Nat → Prop} {i j l : Nat}

/-- The bytes between two positions. -/
def Spelled (bytes part : List UInt8) (i j : Nat) : Prop :=
  part <+: bytes.drop i ∧ j = i + part.length

mutual

/-- From where to where in some bytes a match of a pattern goes. Which assertions hold at a position
is given. -/
def Core.Spans (holds : Look → Nat → Prop) (bytes : List UInt8) : Core → Nat → Nat → Prop
  | .empty, i, j => i = j
  | .literal part, i, j => Spelled bytes part i j
  | .set .characters s, i, j =>
    ∃ c : Char, s.contains c.toNat = true ∧ Spelled bytes (String.utf8EncodeChar c) i j
  | .set .bytes s, i, j => ∃ b : UInt8, s.contains b.toNat = true ∧ Spelled bytes [b] i j
  | .look l, i, j => i = j ∧ holds l i
  | .repetition min max _ sub, i, j => Repeats (sub.Spans holds bytes) min max i j
  | .capture _ sub, i, j => sub.Spans holds bytes i j
  | .concat items, i, j => SpansAll holds bytes items i j
  | .alternation branches, i, j => SpansOne holds bytes branches i j

/-- Matches of some patterns in a row. -/
def SpansAll (holds : Look → Nat → Prop) (bytes : List UInt8) : List Core → Nat → Nat → Prop
  | [], i, j => i = j
  | item :: items, i, j => ∃ k, item.Spans holds bytes i k ∧ SpansAll holds bytes items k j

/-- A match of one of some patterns. -/
def SpansOne (holds : Look → Nat → Prop) (bytes : List UInt8) : List Core → Nat → Nat → Prop
  | [], _, _ => False
  | branch :: branches, i, j => branch.Spans holds bytes i j ∨ SpansOne holds bytes branches i j

end

/-! ## The bytes of a match -/

/-- Every byte between two positions shows in the class. -/
def ShowsBetween (k : CharClass) (bytes : List UInt8) (i j : Nat) : Prop :=
  ∀ n b, i ≤ n → n < j → bytes[n]? = some b → k.Shows b

theorem ShowsBetween.refl : ShowsBetween k bytes i i := by
  intro n b hlow hhigh
  omega

theorem ShowsBetween.trans (h : ShowsBetween k bytes i l) (h' : ShowsBetween k bytes l j) :
    ShowsBetween k bytes i j := by
  intro n b hlow hhigh hb
  rcases Nat.lt_or_ge n l with hn | hn
  · exact h n b hlow hn hb
  · exact h' n b hn hhigh hb

theorem ShowsBetween.union_left {k' : CharClass} (h : ShowsBetween k bytes i j) :
    ShowsBetween (k.union k') bytes i j :=
  fun n b hlow hhigh hb => (h n b hlow hhigh hb).union_left

theorem ShowsBetween.union_right {k' : CharClass} (h : ShowsBetween k' bytes i j) :
    ShowsBetween (k.union k') bytes i j :=
  fun n b hlow hhigh hb => (h n b hlow hhigh hb).union_right

theorem Spelled.showsBetween (h : Spelled bytes part i j) (hpart : ∀ b ∈ part, k.Shows b) :
    ShowsBetween k bytes i j := by
  obtain ⟨⟨rest, hrest⟩, rfl⟩ := h
  intro n b hlow hhigh hb
  have hdrop : bytes[n]? = (part ++ rest)[n - i]? := by
    rw [hrest, List.getElem?_drop, Nat.add_sub_cancel' hlow]
  rw [hdrop, List.getElem?_append_left (by omega)] at hb
  exact hpart b (List.mem_of_getElem? hb)

theorem Iter.showsBetween {r : Nat → Nat → Prop} (hr : ∀ i j, r i j → ShowsBetween k bytes i j)
    (h : Iter r n i j) : ShowsBetween k bytes i j := by
  induction n generalizing i with
  | zero =>
    cases h
    exact .refl
  | succ n ih =>
    obtain ⟨l, hl, h⟩ := h
    exact (hr i l hl).trans (ih h)

mutual

/-- Every byte that a match spans shows in the characters of the pattern. -/
theorem Core.spans_shows : ∀ {h : Core} {i j : Nat}, h.Spans holds bytes i j →
    ShowsBetween h.chars bytes i j
  | .empty, _, _, rfl => .refl
  | .literal _, _, _, h => Spelled.showsBetween h fun _ => shows_charsOfBytes
  | .set .characters _, _, _, ⟨_, hc, h⟩ => h.showsBetween fun _ hb =>
    (shows_of_mem_encode hb).mpr (contains_chars_of_characters hc)
  | .set .bytes _, _, _, ⟨_, hb, h⟩ => h.showsBetween fun _ hmem => by
    obtain rfl := List.mem_singleton.mp hmem
    exact shows_chars_of_bytes hb
  | .look _, _, _, ⟨rfl, _⟩ => .refl
  | .repetition _ _ _ sub, _, _, ⟨_, _, _, h⟩ => h.showsBetween fun _ _ => sub.spans_shows
  | .capture _ sub, _, _, h => Core.spans_shows (h := sub) h
  | .concat _, _, _, h => spansAll_shows h
  | .alternation _, _, _, h => spansOne_shows h

theorem spansAll_shows : ∀ {items : List Core} {i j : Nat}, SpansAll holds bytes items i j →
    ShowsBetween (charsOfAll items) bytes i j
  | [], _, _, rfl => .refl
  | _ :: _, _, _, ⟨_, hitem, hitems⟩ =>
    (Core.spans_shows hitem).union_left.trans (spansAll_shows hitems).union_right

theorem spansOne_shows : ∀ {branches : List Core} {i j : Nat}, SpansOne holds bytes branches i j →
    ShowsBetween (charsOfAll branches) bytes i j
  | [], _, _, h => h.elim
  | _ :: _, _, _, .inl h => (Core.spans_shows h).union_left
  | _ :: _, _, _, .inr h => (spansOne_shows h).union_right

end

/-! ## The number of bytes of a match -/

/-- The last range of the set ends with the longest of its characters. -/
structure CodeSet.InOrder (s : CodeSet) : Prop where
  ordered : ∀ r ∈ s.ranges, r.1 ≤ r.2
  ascending : s.ranges.Pairwise fun r t => Core.utf8Length r.2 ≤ Core.utf8Length t.2

mutual

/-- The ranges of every class ascend. -/
def Core.InOrder : Core → Prop
  | .set _ s => s.InOrder
  | .repetition _ _ _ sub => sub.InOrder
  | .capture _ sub => sub.InOrder
  | .concat items => AllInOrder items
  | .alternation branches => AllInOrder branches
  | _ => True

def AllInOrder : List Core → Prop
  | [] => True
  | item :: items => item.InOrder ∧ AllInOrder items

end

theorem utf8Length_mono {m n : Nat} (h : m ≤ n) : Core.utf8Length m ≤ Core.utf8Length n := by
  unfold Core.utf8Length
  grind

theorem length_encode (c : Char) : (String.utf8EncodeChar c).length = Core.utf8Length c.toNat := by
  have hval : c.val.toNat = c.toNat := rfl
  simp only [String.utf8EncodeChar, hval, Core.utf8Length]
  grind

theorem utf8Length_le_setLength {s : CodeSet} {m : Nat} (hs : s.InOrder)
    (hn : Core.setLength .characters s = some n) (hm : s.contains m = true) :
    Core.utf8Length m ≤ n := by
  obtain ⟨last, hlast, rfl⟩ := Option.map_eq_some_iff.mp hn
  obtain ⟨r, hr, -, hle⟩ := CodeSet.contains_iff.mp hm
  obtain ⟨front, hranges⟩ := List.getLast?_eq_some_iff.mp hlast
  refine Nat.le_trans (utf8Length_mono hle) ?_
  rw [hranges] at hr
  rcases List.mem_append.mp hr with hr | hr
  · have hpairwise := hs.ascending
    rw [hranges, List.pairwise_append] at hpairwise
    exact hpairwise.2.2 r hr last (List.mem_singleton_self _)
  · rw [List.mem_singleton.mp hr]

theorem Iter.length_le {r : Nat → Nat → Prop} {m : Nat} (hr : ∀ i j, r i j → j ≤ i + m)
    (h : Iter r n i j) : j ≤ i + m * n := by
  induction n generalizing i with
  | zero =>
    cases h
    exact Nat.le_refl _
  | succ n ih =>
    obtain ⟨l, hl, h⟩ := h
    have hfirst := hr i l hl
    have hrest := ih h
    rw [Nat.mul_succ]
    omega

mutual

/-- A match spans no more bytes than the longest one. -/
theorem Core.spans_length : ∀ {h : Core} {i j n : Nat}, h.InOrder → h.maxLength = some n →
    h.Spans holds bytes i j → j ≤ i + n
  | .empty, _, _, _, _, _, rfl => Nat.le_add_right _ _
  | .literal _, _, _, _, _, rfl, ⟨_, rfl⟩ => Nat.le_refl _
  | .set .characters _, _, _, _, hs, hn, ⟨c, hc, _, rfl⟩ => by
    rw [length_encode]
    exact Nat.add_le_add_left (utf8Length_le_setLength hs hn hc) _
  | .set .bytes _, _, _, _, _, hn, ⟨_, _, _, rfl⟩ => by
    obtain ⟨_, -, rfl⟩ := Option.map_eq_some_iff.mp hn
    exact Nat.le_refl _
  | .look _, _, _, _, _, _, ⟨rfl, _⟩ => Nat.le_add_right _ _
  | .repetition _ _ _ sub, i, j, n, hsub, hn, ⟨times, _, hmax, h⟩ => by
    simp only [Core.maxLength, Option.bind_eq_some_iff, Size.checked_eq_some_iff] at hn
    obtain ⟨most, rfl, m, hm, rfl, -⟩ := hn
    have hlength := h.length_le fun _ _ => Core.spans_length (h := sub) hsub hm
    have htimes : m * times ≤ m * most := Nat.mul_le_mul_left m (hmax most rfl)
    omega
  | .capture _ sub, _, _, _, hsub, hn, h => Core.spans_length (h := sub) hsub hn h
  | .concat _, _, _, _, hitems, hn, h => spansAll_length hitems hn h
  | .alternation _, _, _, _, hbranches, hn, h => spansOne_length hbranches hn h

theorem spansAll_length : ∀ {items : List Core} {i j n : Nat}, AllInOrder items →
    Core.totalLength items = some n → SpansAll holds bytes items i j → j ≤ i + n
  | [], _, _, _, _, _, rfl => Nat.le_add_right _ _
  | _ :: _, i, j, n, ⟨hitem, hitems⟩, hn, ⟨l, hl, h⟩ => by
    simp only [Core.totalLength, Option.bind_eq_some_iff, Size.checked_eq_some_iff] at hn
    obtain ⟨m, hm, m', hm', rfl, -⟩ := hn
    have hfirst := Core.spans_length hitem hm hl
    have hrest := spansAll_length hitems hm' h
    omega

theorem spansOne_length : ∀ {branches : List Core} {i j n : Nat}, AllInOrder branches →
    Core.greatestLength branches = some n → SpansOne holds bytes branches i j → j ≤ i + n
  | [], _, _, _, _, _, h => h.elim
  | [_], _, _, _, ⟨hbranch, _⟩, hn, h => by
    rcases h with h | h
    · exact Core.spans_length hbranch hn h
    · exact h.elim
  | _ :: _ :: _, i, j, n, ⟨hbranch, hbranches⟩, hn, h => by
    obtain ⟨m, hm, hn⟩ := Option.bind_eq_some_iff.mp hn
    obtain ⟨m', hm', rfl⟩ := Option.map_eq_some_iff.mp hn
    have hleft := Nat.le_max_left m m'
    have hright := Nat.le_max_right m m'
    rcases h with h | h
    · have hlength := Core.spans_length hbranch hm h
      omega
    · have hlength := spansOne_length hbranches hm' h
      omega

end

/-! ## Texts that a match spans -/

/-- Where all bytes of a character show in a class, the class has the character. -/
theorem contains_of_showsBetween {text : List Char}
    (h : ShowsBetween k (encoded text) 0 (encoded text).length) :
    ∀ c ∈ text, k.contains c = true := by
  intro c hc
  -- the first byte of a character is enough, since it stands for the character
  obtain ⟨first, more, hencode, -⟩ := Text.encode_eq_cons c
  have hfirst : first ∈ String.utf8EncodeChar c := by
    rw [hencode]
    exact List.mem_cons_self
  have hmem : first ∈ encoded text := List.mem_flatMap.mpr ⟨c, hc, hfirst⟩
  obtain ⟨n, hn, hget⟩ := List.mem_iff_getElem.mp hmem
  refine (shows_of_mem_encode hfirst).mp (h n first (Nat.zero_le n) hn ?_)
  rw [List.getElem?_eq_getElem hn, hget]

theorem Core.chars_of_spans {h : Core} {text : List Char}
    (hspan : h.Spans holds (encoded text) 0 (encoded text).length) :
    ∀ c ∈ text, h.chars.contains c = true :=
  contains_of_showsBetween (Core.spans_shows hspan)

theorem Core.length_of_spans {h : Core} {text : List Char} (horder : h.InOrder)
    (hspan : h.Spans holds (encoded text) 0 (encoded text).length) (hn : h.maxLength = some n) :
    text.length ≤ n := by
  have hlength := Core.spans_length horder hn hspan
  have hsplit : encoded text = encoded text ++ encoded [] := (List.append_nil _).symm
  have hchars := Text.length_le_of_encoded_eq hsplit
  rw [List.length_nil] at hchars
  omega

/-- A text whose bytes a match spans from start to end has characters of the pattern only, whichever
parts of the pattern their bytes come from. If the ranges of classes ascend, it has no more
characters than the longest match has bytes. -/
theorem Core.spans_confines {h : Core} {text : String}
    (hspan : h.Spans holds (encoded text.toList) 0 (encoded text.toList).length) :
    (∀ c ∈ text.toList, h.chars.contains c = true) ∧
      (h.InOrder → ∀ n, h.maxLength = some n → text.length ≤ n) := by
  refine ⟨Core.chars_of_spans hspan, fun horder n hn => ?_⟩
  rw [← String.length_toList]
  exact Core.length_of_spans horder hspan hn

/-- A character of two bytes from two classes of bytes, and up to two letters. -/
def dividedCharacter : Core :=
  .concat [.set .bytes ⟨[(0xC3, 0xC3)]⟩, .set .bytes ⟨[(0x80, 0x8F), (0xA0, 0xBF)]⟩,
    .repetition 0 (some 2) true (.literal [0x61])]

theorem Core.spans_confines_divided_character :
    dividedCharacter.Spans (fun _ _ => False) (encoded "éa".toList) 0
        (encoded "éa".toList).length ∧
      dividedCharacter.InOrder ∧ (∀ c ∈ "éa".toList, dividedCharacter.chars.contains c = true) ∧
      "éa".length ≤ 4 := by
  have hbytes : encoded "éa".toList = [0xC3, 0xA9, 0x61] := by
    rw [String.toList_ofList]
    decide
  have hspan : dividedCharacter.Spans (fun _ _ => False) (encoded "éa".toList) 0
      (encoded "éa".toList).length := by
    rw [hbytes]
    refine ⟨1, ⟨0xC3, by decide, by decide, rfl⟩, 2, ⟨0xA9, by decide, by decide, rfl⟩, 3, ?_, rfl⟩
    exact ⟨1, by decide, by decide, 3, ⟨by decide, rfl⟩, rfl⟩
  have horder : dividedCharacter.InOrder :=
    ⟨⟨by decide, by decide⟩, ⟨by decide, by decide⟩, trivial, trivial⟩
  obtain ⟨hchars, hlength⟩ := Core.spans_confines hspan
  exact ⟨hspan, horder, hchars, hlength horder 4 (by decide)⟩

end Pattern

end FlowSafety
