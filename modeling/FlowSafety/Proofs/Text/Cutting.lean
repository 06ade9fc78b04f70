import FlowSafety.Catalogue.Builtins
import FlowSafety.Proofs.Text.Joining
import FlowSafety.Proofs.Walk.Summary

/-!
# Known values of cut texts

A cut leaves a text that begins where the text began: of the places that it is given only their
distance counts. So what is known of the values after a cut is what is left at the front of the
known values, and a cut with one place, or with none, leaves the known values alone.

* `TextGuarantee.values_cut_between`, `TextGuarantee.values_pass` — the values after a cut
* `mem_values_of_cut` — when the values after a cut hold the text that the cut stands for
* `misses_cut_in_the_middle` — texts that they miss
-/

namespace FlowSafety

namespace Text

/-! ## Parts of texts -/

/-- The characters from one place up to another. -/
def slice (s : String) (first last : Nat) : String :=
  String.ofList ((s.toList.drop first).take (last - first))

/-- The characters from a place on. -/
def suffix (s : String) (first : Nat) : String := String.ofList (s.toList.drop first)

/-- Without the blanks at both ends. -/
def trimmed (blank : Char → Bool) (s : String) : String :=
  String.ofList (((s.toList.dropWhile blank).reverse.dropWhile blank).reverse)

end Text

namespace TextGuarantee

variable {g : TextGuarantee} {known : TextSet} {first last : Int64}

/-! ## Cuts -/

/-- Numbers alone only cut. -/
theorem passThrough_ints (g : TextGuarantee) (truncate : Option Nat) (ints : List Int64) :
    g.passThrough truncate (ints.map Piece.int) = g.cut truncate ints := by
  have hints : (ints.map Piece.int).filterMap Piece.int? = ints := by
    rw [List.filterMap_map]
    exact List.filterMap_some
  have hjoined : (ints.map Piece.int).any Piece.isJoined = false := by
    rw [List.any_map]
    exact List.any_eq_false.mpr fun _ _ => Bool.false_ne_true
  rw [passThrough, hints, hjoined]
  rfl

/-- After a cut between two places the values are what is left at the front of the known ones. -/
theorem values_cut_between (hg : g.values = some known) (hfirst : 0 ≤ first.toInt)
    (hlast : first.toInt ≤ last.toInt) :
    (g.passThrough none [.int first, .int last]).values =
      some (known.map fun u => Text.slice u 0 (last.toInt.toNat - first.toInt.toNat)) := by
  have hlength : cutLength? none [first, last] = some (last.toInt.toNat - first.toInt.toNat) := by
    rw [cutLength?, if_pos ⟨hfirst, hlast⟩]
    exact congrArg some (by omega)
  rw [show [Piece.int first, Piece.int last] = [first, last].map Piece.int from rfl,
    passThrough_ints, cut, hlength]
  simp only [truncate, hg]
  rfl

/-- Without two places there is no cut. -/
theorem values_pass (ints : List Int64) (hg : g.values = some known) (hints : ints.length ≤ 1) :
    (g.passThrough none (ints.map Piece.int)).values = some known := by
  rw [passThrough_ints, cut_of_few (Nat.lt_succ_of_le hints)]
  exact hg

end TextGuarantee

theorem Catalogue.get?_trim : builtins.get? "trim" = some (.text (.passThrough none)) := by
  rw [builtins, get?_ofList]
  rfl

/-! ## Known values -/

/-- The values after a cut hold the text between two places exactly if some known value begins with
it, as that text itself does if it is cut off at the front. The text from a place on and the text
without the blanks at its ends are held exactly if they are known values already. -/
theorem mem_values_of_cut {g : TextGuarantee} {known : TextSet} {v : String}
    (hg : g.values = some known) (hv : v ∈ known) :
    (∀ first last : Int64, 0 ≤ first.toInt → first.toInt ≤ last.toInt →
      ∃ kept, (g.passThrough none [.int first, .int last]).values = some kept ∧
        (Text.slice v first.toInt.toNat last.toInt.toNat ∈ kept ↔
          ∃ u ∈ known, Text.slice u 0 (last.toInt.toNat - first.toInt.toNat) =
            Text.slice v first.toInt.toNat last.toInt.toNat) ∧
        (first = 0 → Text.slice v first.toInt.toNat last.toInt.toNat ∈ kept)) ∧
    (∀ first : Int64, 0 ≤ first.toInt →
      ∃ kept, (g.passThrough none [.int first]).values = some kept ∧
        (Text.suffix v first.toInt.toNat ∈ kept ↔ Text.suffix v first.toInt.toNat ∈ known) ∧
        (first = 0 → Text.suffix v first.toInt.toNat ∈ kept)) ∧
    Catalogue.builtins.get? "trim" = some (.text (.passThrough none)) ∧
    ∀ blank : Char → Bool,
      ∃ kept, (g.passThrough none []).values = some kept ∧
        (Text.trimmed blank v ∈ kept ↔ Text.trimmed blank v ∈ known) ∧
        (Text.trimmed blank v = v → Text.trimmed blank v ∈ kept) := by
  refine ⟨?_, ?_, Catalogue.get?_trim, ?_⟩
  · intro first last hfirst hlast
    refine ⟨_, TextGuarantee.values_cut_between hg hfirst hlast, TextSet.mem_map, ?_⟩
    rintro rfl
    exact TextSet.mem_map.mpr ⟨v, hv, rfl⟩
  · intro first _
    refine ⟨known, TextGuarantee.values_pass [first] hg (Nat.le_refl 1), Iff.rfl, ?_⟩
    rintro rfl
    rw [show Text.suffix v (0 : Int64).toInt.toNat = v from String.ofList_toList]
    exact hv
  · intro blank
    refine ⟨known, TextGuarantee.values_pass [] hg (Nat.zero_le 1), Iff.rfl, ?_⟩
    intro htrimmed
    rw [htrimmed]
    exact hv

/-- The end of the one known value is the beginning of the other, so a cut in the middle finds it. -/
theorem mem_values_of_overlap :
    "aab" ∈ TextSet.ofList ["aab", "ab"] ∧
      ∃ kept, ((TextGuarantee.oneOf (.ofList ["aab", "ab"])).passThrough none
          [.int 1, .int 3]).values = some kept ∧ Text.slice "aab" 1 3 ∈ kept := by
  have hmem : "aab" ∈ TextSet.ofList ["aab", "ab"] := by decide
  obtain ⟨hbetween, -⟩ :=
    mem_values_of_cut (g := .oneOf (.ofList ["aab", "ab"])) rfl hmem
  obtain ⟨kept, hkept, hiff, -⟩ := hbetween 1 3 (by decide) (by decide)
  exact ⟨hmem, kept, hkept, hiff.mpr ⟨"ab", by decide, by decide⟩⟩

/-! ## Cuts in the middle -/

/-- The second character of the only allowed text, as a loop bound. -/
def secondDigit : Path :=
  { version := pathVersion
    branches := [{ parent := none, condition := .inAllowList (.ofList ["19"]), outcome := .passed }]
    steps :=
      [⟨.source (.ofText "page"), none⟩, ⟨.guard 0, some 0⟩,
        ⟨.string "substring" [.int 1, .int 2], some 0⟩, ⟨.numeric (.parseInt .i32) [], some 0⟩,
        ⟨.sink .loopBound, some 0⟩] }

/-- The values after a cut miss the text that is cut out of the only known value: a digit in the
middle, the text from that digit on, and the text without the blanks around it. A loop that runs up
to the digit `9` passes for one that runs up to the digit `1`. -/
theorem misses_cut_in_the_middle :
    ((TextGuarantee.oneOf (.ofList ["19"])).passThrough none [.int 1, .int 2]).values =
        some (.ofList ["1"]) ∧
      Text.slice "19" 1 2 ∉ TextSet.ofList ["1"] ∧
      ((TextGuarantee.oneOf (.ofList ["19"])).passThrough none [.int 1]).values =
        some (.ofList ["19"]) ∧
      Text.suffix "19" 1 ∉ TextSet.ofList ["19"] ∧
      ((TextGuarantee.oneOf (.ofList [" 9 "])).passThrough none []).values =
        some (.ofList [" 9 "]) ∧
      Text.trimmed Unicode.isWhiteSpace " 9 " ∉ TextSet.ofList [" 9 "] ∧
      ((Classifier.ofEntries 5 [("substring", .text (.passThrough none))]).classify
        secondDigit).outcome = .safe := by
  decide +kernel

end FlowSafety
