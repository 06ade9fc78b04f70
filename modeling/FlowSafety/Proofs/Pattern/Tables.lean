import Mathlib.Tactic.Tauto
import FlowSafety.Pattern.Property
import FlowSafety.Proofs.Pattern.CodeSet

/-!
# What the tables hold

The tables behind the class letters and behind the folding of case, as far as a search in ASCII
looks at them: which ASCII characters they hold, and whether they hold the long s and the Kelvin
sign, which differ from ASCII letters only in case.

* `orbits_eval` — the characters that differ from an ASCII letter only in case
* `LetterClass.shows_table` — the ASCII members of the class letters
-/

namespace FlowSafety.Pattern

open Unicode

/-! ## Evaluating tables -/

theorem chars_join {lines : List String} {cs : List Char} (h : lines.flatMap String.toList = cs) :
    (String.join lines).toList = cs := by
  rw [String.toList_join, h]

/-- The characters of a line can be read off it. -/
theorem chars_cons {line : String} {lines : List String} {cs ds : List Char}
    (h : line = String.ofList cs) (h' : lines.flatMap String.toList = ds) :
    (line :: lines).flatMap String.toList = cs ++ ds := by
  rw [List.flatMap_cons, h, h', String.toList_ofList]

/-- `Fold.orbitsFrom` with a bound on the number of sets. -/
def orbitsBy : Nat → Nat → List Nat → List (List Nat)
  | turns + 1, start, gap :: more :: rest =>
    ((start + gap) :: Fold.following (start + gap) (rest.take (more + 1))) ::
      orbitsBy turns (start + gap + 1) (rest.drop (more + 1))
  | _, _, _ => []

theorem orbitsFrom_eq {turns start : Nat} {ns : List Nat} (h : ns.length ≤ turns) :
    Fold.orbitsFrom start ns = orbitsBy turns start ns := by
  induction turns generalizing start ns with
  | zero =>
    obtain rfl := List.length_eq_zero_iff.mp (Nat.le_zero.mp h)
    rw [Fold.orbitsFrom]
    · rfl
    · simp
  | succ turns ih =>
    rcases ns with _ | ⟨gap, _ | ⟨more, rest⟩⟩
    · rw [Fold.orbitsFrom, orbitsBy] <;> simp
    · rw [Fold.orbitsFrom, orbitsBy] <;> simp
    · rw [Fold.orbitsFrom, orbitsBy, ih]
      simp only [List.length_cons, List.length_drop] at h ⊢
      omega

/-! ## Folding -/

/-- The letters of ASCII, each with what differs from it only in case. -/
def asciiOrbits : List (List Nat) :=
  (List.range 26).map fun i =>
    [65 + i, 97 + i] ++ if i = 10 then [0x212A] else if i = 18 then [0x17F] else []

/-- A code that a search in ASCII looks at. -/
def isWatched (n : Nat) : Bool := n < 128 || n == 0x212A || n == 0x17F

theorem orbits_eval :
    Fold.orbits.filter (fun o => o.any isWatched) = asciiOrbits ∧
      ∀ o ∈ Fold.orbits, ∀ n ∈ o, IsCut n ∧ IsCut (n + 1) := by
  have h : ∃ cs, Fold.orbitText.toList = cs ∧ (Table.numbersFrom 0 cs).length ≤ 5000 ∧
      (orbitsBy 5000 0 (Table.numbersFrom 0 cs)).filter (fun o => o.any isWatched) = asciiOrbits ∧
      ∀ o ∈ orbitsBy 5000 0 (Table.numbersFrom 0 cs), ∀ n ∈ o, IsCut n ∧ IsCut (n + 1) := by
    apply Exists.intro
    apply And.intro
    · apply chars_join
      repeat apply chars_cons rfl
      exact List.flatMap_nil
    · decide +kernel
  obtain ⟨cs, hcs, hlength, hfilter, hcuts⟩ := h
  have horbits : Fold.orbits = orbitsBy 5000 0 (Table.numbersFrom 0 cs) := by
    rw [Fold.orbits, Table.numbers, hcs]
    exact orbitsFrom_eq hlength
  rw [horbits]
  exact ⟨hfilter, hcuts⟩

/-! ## Class letters -/

/-- What is seen of a table: its ranges have the form of a set, those that begin in ASCII, and
whether it holds the long s and the Kelvin sign. -/
structure Shows (rs low : List (Nat × Nat)) (signs : Bool) : Prop where
  pieces : ∀ r ∈ rs, IsPiece r
  low : rs.filter (fun r => r.1 < 128) = low
  longS : rs.any (fun r => r.1 ≤ 0x17F && 0x17F ≤ r.2) = signs
  kelvin : rs.any (fun r => r.1 ≤ 0x212A && 0x212A ≤ r.2) = signs

instance (r : Nat × Nat) : Decidable (IsPiece r) :=
  decidable_of_iff (r.1 ≤ r.2 ∧ IsCut r.1 ∧ IsCut (r.2 + 1))
    ⟨fun h => ⟨h.1, h.2.1, h.2.2⟩, fun h => ⟨h.ordered, h.first, h.behind⟩⟩

instance (rs low : List (Nat × Nat)) (signs : Bool) : Decidable (Shows rs low signs) :=
  decidable_of_iff (_ ∧ _ ∧ _ ∧ _)
    ⟨fun h => ⟨h.1, h.2.1, h.2.2.1, h.2.2.2⟩, fun h => ⟨h.pieces, h.low, h.longS, h.kelvin⟩⟩

theorem category_eval :
    Shows (Category.ranges [.nd]) [(48, 57)] false ∧
      Shows (Category.ranges (Category.marks ++ [.nd, .pc])) [(48, 57), (95, 95)] false := by
  have h : ∃ cs, Category.runText.toList = cs ∧
      let runs := Category.runsFrom 0 (Table.pairs (Table.numbersFrom 0 cs))
      let rangesOf := fun cs : List Category =>
        (runs.filter fun run => (cs.map Category.all.idxOf).contains run.1).map (·.2)
      Shows (rangesOf [.nd]) [(48, 57)] false ∧
        Shows (rangesOf (Category.marks ++ [.nd, .pc])) [(48, 57), (95, 95)] false := by
    apply Exists.intro
    apply And.intro
    · apply chars_join
      repeat apply chars_cons rfl
      exact List.flatMap_nil
    · decide +kernel
  obtain ⟨cs, hcs, h⟩ := h
  unfold Category.ranges Category.runs Table.numbers
  rw [hcs]
  exact h

/-- A property whose table shows something. -/
def PropertyShows (name : String) (low : List (Nat × Nat)) (signs : Bool) : Prop :=
  ∃ rs, Property.ranges? name = some rs ∧ Shows rs low signs

theorem propertyShows_of_row {name : String} {row : String × String} {cs : List Char}
    {low : List (Nat × Nat)} {signs : Bool}
    (hrow : Property.rows.find? (fun row => (Table.words row.1).contains name) = some row)
    (hcs : row.2.toList = cs)
    (h : Shows (Table.rangesFrom 0 (Table.pairs (Table.numbersFrom 0 cs))) low signs) :
    PropertyShows name low signs := by
  refine ⟨_, ?_, h⟩
  rw [Property.ranges?, Table.rowRanges?, hrow, Option.map_some, Table.ranges, Table.numbers, hcs]

theorem alphabetic_eval : PropertyShows "alphabetic" [(65, 90), (97, 122)] true := by
  apply propertyShows_of_row rfl
  · apply chars_join
    repeat apply chars_cons rfl
    exact List.flatMap_nil
  · decide +kernel

theorem joincontrol_eval : PropertyShows "joincontrol" [] false := by
  have hrow : Property.rows.find? (fun row => (Table.words row.1).contains "joincontrol") =
      some ("joinc joincontrol", "80iX") := by decide +kernel
  exact propertyShows_of_row hrow String.toList_ofList (by decide +kernel)

theorem whitespace_eval : PropertyShows "whitespace" [(9, 13), (32, 32)] false := by
  have hrow : Property.rows.find? (fun row => (Table.words row.1).contains "whitespace") =
      some ("wspace whitespace space", "faoW3aWwW5E_W2B_gzXbW1lW3TWW") := by decide +kernel
  exact propertyShows_of_row hrow String.toList_ofList (by decide +kernel)

theorem Shows.append {rs rs' low low' : List (Nat × Nat)} {signs signs' : Bool}
    (h : Shows rs low signs) (h' : Shows rs' low' signs') :
    Shows (rs ++ rs') (low ++ low') (signs || signs') where
  pieces := List.forall_mem_append.mpr ⟨h.pieces, h'.pieces⟩
  low := by rw [List.filter_append, h.low, h'.low]
  longS := by rw [List.any_append, h.longS, h'.longS]
  kelvin := by rw [List.any_append, h.kelvin, h'.kelvin]

theorem Shows.covered {rs low : List (Nat × Nat)} {signs : Bool} (h : Shows rs low signs) {n : Nat}
    (hn : n < 128) : Covered rs n ↔ Covered low n := by
  rw [← h.low]
  constructor
  · rintro ⟨r, hr, hlo, hhi⟩
    exact ⟨r, List.mem_filter.mpr ⟨hr, decide_eq_true (by omega)⟩, hlo, hhi⟩
  · rintro ⟨r, hr, hrange⟩
    exact ⟨r, (List.mem_filter.mp hr).1, hrange⟩

theorem Shows.covered_sign {rs low : List (Nat × Nat)} {signs : Bool} (h : Shows rs low signs)
    {n : Nat} (hn : n = 0x17F ∨ n = 0x212A) : Covered rs n ↔ signs = true := by
  rcases hn with rfl | rfl
  · rw [← h.longS]
    simp [Covered]
  · rw [← h.kelvin]
    simp [Covered]

/-- The ranges behind a class letter. -/
def LetterClass.table : LetterClass → List (Nat × Nat)
  | .digit => decimalDigits
  | .space => whiteSpace
  | .word => wordRanges

theorem LetterClass.characters_eq (k : LetterClass) : k.characters = .ofRanges k.table := by
  cases k <;> rfl

theorem LetterClass.shows_table (k : LetterClass) :
    ∃ low, Shows k.table low (k == .word) ∧ ∀ n, Covered low n ↔ k.ascii.contains n = true := by
  cases k with
  | digit =>
    refine ⟨_, category_eval.1, ?_⟩
    intro n
    exact CodeSet.contains_ofRanges.symm
  | space =>
    obtain ⟨rs, hrs, h⟩ := whitespace_eval
    refine ⟨[(9, 13), (32, 32)], ?_, ?_⟩
    · rw [table, whiteSpace, hrs]
      exact h
    · intro n
      exact CodeSet.contains_ofRanges.symm
  | word =>
    obtain ⟨letters, hletters, h⟩ := alphabetic_eval
    obtain ⟨joiners, hjoiners, h'⟩ := joincontrol_eval
    have hshows := (h.append category_eval.2).append h'
    refine ⟨[(65, 90), (97, 122)] ++ [(48, 57), (95, 95)] ++ [], ?_, ?_⟩
    · rw [table, wordRanges, hletters, hjoiners]
      exact hshows
    · intro n
      rw [ascii, NamedClass.set, CodeSet.contains_ofRanges]
      simp only [NamedClass.ranges, List.cons_append, List.nil_append, covered_cons, covered_nil]
      tauto

end FlowSafety.Pattern
