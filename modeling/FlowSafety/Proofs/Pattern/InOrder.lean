import FlowSafety.Proofs.Pattern.Choice
import FlowSafety.Proofs.Pattern.Rising

/-!
# The classes of a pattern are in order

Every way of building a pattern keeps its classes in order, so those of every pattern that is read
are, in both modes and under all flags, and the length of its longest match is what
`Core.spans_length` takes it for.

* `inOrder_inRow`, `inOrder_oneOf` — built patterns
* `Resolves.inOrder` — the induction over what is written
* `inOrder_of_meaning` — patterns that are read
-/

namespace FlowSafety.Pattern

variable {s : CodeSet} {d : Domain} {m : Mode} {f : Flags}

/-! ## Built patterns -/

theorem allInOrder_iff {items : List Core} : AllInOrder items ↔ ∀ h ∈ items, h.InOrder := by
  induction items with
  | nil => simp [AllInOrder]
  | cons item items ih => rw [AllInOrder, ih, List.forall_mem_cons]

theorem inOrder_ofSet (hs : s.InOrder) : (Core.ofSet d s).InOrder := by
  unfold Core.ofSet
  split
  · exact apart_empty.rising.inOrder (Nat.zero_le 2)
  · split
    · trivial
    · exact hs

theorem inOrder_repeated {min : Nat} {max : Option Nat} {greedy : Bool} {sub : Core}
    (hsub : sub.InOrder) : (Core.repeated min max greedy sub).InOrder := by
  have hrepetition (min : Nat) (max : Option Nat) : (repetitionOf min max greedy sub).InOrder := by
    unfold repetitionOf
    split
    · trivial
    · split <;> exact hsub
  rw [repeated_eq]
  split <;> exact hrepetition _ _

theorem inOrder_prepend {item : Core} {items : List Core} (hitem : item.InOrder)
    (hitems : AllInOrder items) : AllInOrder (Core.prepend item items) := by
  unfold Core.prepend
  split
  · exact hitems
  · exact ⟨trivial, hitems.2⟩
  · exact ⟨hitem, hitems⟩

theorem inOrder_itemsOf {h : Core} (hh : h.InOrder) : AllInOrder h.itemsOf := by
  unfold Core.itemsOf
  split
  · exact hh
  · exact ⟨hh, trivial⟩

theorem inOrder_inRow {items : List Core} (hitems : AllInOrder items) :
    (Core.inRow items).InOrder := by
  have hflat : AllInOrder (items.flatMap Core.itemsOf) := by
    rw [allInOrder_iff] at hitems ⊢
    intro h hh
    obtain ⟨item, hitem, hh⟩ := List.mem_flatMap.mp hh
    exact allInOrder_iff.mp (inOrder_itemsOf (hitems item hitem)) h hh
  have hrow : AllInOrder ((items.flatMap Core.itemsOf).foldr Core.prepend []) := by
    generalize items.flatMap Core.itemsOf = flat at hflat
    induction flat with
    | nil => trivial
    | cons item flat ih => exact inOrder_prepend hflat.1 (ih hflat.2)
  unfold Core.inRow
  split
  · trivial
  · next hitem => exact (hitem ▸ hrow).1
  · exact hrow

theorem inOrder_branchesOf {h : Core} (hh : h.InOrder) : AllInOrder h.branchesOf := by
  unfold Core.branchesOf
  split
  · exact hh
  · exact ⟨hh, trivial⟩

theorem apart_codes (ns : List Nat) : (Core.codes ns).Apart := by
  refine apart_ofRanges fun r hr => ?_
  obtain ⟨n, -, rfl⟩ := List.mem_map.mp hr
  exact Nat.le_refl n

theorem apart_unionOf {sets : List CodeSet} (h : ∀ s ∈ sets, AllOrdered s.ranges) :
    (Core.unionOf sets).Apart := by
  refine apart_ofRanges fun r hr => ?_
  obtain ⟨s, hs, hr⟩ := List.mem_flatMap.mp hr
  exact h s hs r hr

theorem ordered_of_characterSet {h : Core} (hh : h.InOrder) (hs : h.characterSet? = some s) :
    AllOrdered s.ranges := by
  unfold Core.characterSet? at hs
  split at hs
  · cases hs
    exact hh.ordered
  · obtain ⟨-, hs⟩ := Option.ite_none_right_eq_some.mp hs
    cases hs
    exact hh.ordered
  · contradiction

theorem ordered_of_byteSet {h : Core} (hh : h.InOrder) (hs : h.byteSet? = some s) :
    AllOrdered s.ranges := by
  unfold Core.byteSet? at hs
  split at hs
  · cases hs
    exact hh.ordered
  · obtain ⟨-, hs⟩ := Option.ite_none_right_eq_some.mp hs
    cases hs
    exact hh.ordered
  · contradiction

theorem inOrder_classOf {branches : List Core} {h : Core} (hbranches : AllInOrder branches)
    (hclass : Core.classOf? branches = some h) : h.InOrder := by
  rw [allInOrder_iff] at hbranches
  have hset {s : CodeSet} (hs : s.Apart) : s.InOrder := hs.rising.inOrder (Nat.zero_le 2)
  unfold Core.classOf? at hclass
  rw [Option.or_eq_some_iff, Option.or_eq_some_iff, Option.or_eq_some_iff] at hclass
  rcases hclass with hclass | ⟨-, hclass | ⟨-, hclass | ⟨-, hclass⟩⟩⟩
  · obtain ⟨ns, -, rfl⟩ := Option.map_eq_some_iff.mp hclass
    exact inOrder_ofSet (hset (apart_codes ns))
  · obtain ⟨ns, -, rfl⟩ := Option.map_eq_some_iff.mp hclass
    exact inOrder_ofSet (hset (apart_codes ns))
  · obtain ⟨sets, hsets, rfl⟩ := Option.map_eq_some_iff.mp hclass
    refine inOrder_ofSet (hset (apart_unionOf fun s hs => ?_))
    obtain ⟨h, hh, hs⟩ := (each_eq_some hsets).2 s hs
    exact ordered_of_characterSet (hbranches h hh) hs
  · obtain ⟨sets, hsets, rfl⟩ := Option.map_eq_some_iff.mp hclass
    refine inOrder_ofSet (hset (apart_unionOf fun s hs => ?_))
    obtain ⟨h, hh, hs⟩ := (each_eq_some hsets).2 s hs
    exact ordered_of_byteSet (hbranches h hh) hs

theorem inOrder_rows {branches : List Core} {rows : List (List Core)}
    (hbranches : AllInOrder branches) (hrows : Core.each? Core.row? branches = some rows) :
    ∀ row ∈ rows, AllInOrder row := by
  intro row hrow
  obtain ⟨h, hh, heq⟩ := (each_eq_some hrows).2 row hrow
  obtain rfl := eq_of_row heq
  exact allInOrder_iff.mp hbranches _ hh

/-- What rows begin with, and alternatives of the rest. -/
theorem inOrder_shared {rows : List (List Core)} {rest : List Core → Core}
    (hrows : ∀ row ∈ rows, AllInOrder row)
    (hrest : ∀ branches, AllInOrder branches → (rest branches).InOrder) :
    let shared := Core.sharedStart rows
    (Core.inRow
      (shared ++ [rest (rows.map fun row => Core.inRow (row.drop shared.length))])).InOrder := by
  intro shared
  have hshared : AllInOrder shared := by
    cases rows with
    | nil => trivial
    | cons row rows =>
      rw [allInOrder_iff]
      exact fun h hh => allInOrder_iff.mp (hrows row List.mem_cons_self) h
        ((prefix_of_sharedStart row List.mem_cons_self).subset hh)
  have hrests : AllInOrder (rows.map fun row => Core.inRow (row.drop shared.length)) := by
    rw [allInOrder_iff, List.forall_mem_map]
    intro row hrow
    refine inOrder_inRow (allInOrder_iff.mpr fun h hh => ?_)
    exact allInOrder_iff.mp (hrows row hrow) h (List.mem_of_mem_drop hh)
  refine inOrder_inRow (allInOrder_iff.mpr (List.forall_mem_append.mpr
    ⟨allInOrder_iff.mp hshared, ?_⟩))
  exact List.forall_mem_singleton.mpr (hrest _ hrests)

theorem inOrder_choice_of_smaller {budget : Nat} {branches : List Core}
    (hbranches : AllInOrder branches)
    (ih : ∀ smaller, budget = smaller + 1 → ∀ branches, AllInOrder branches →
      (Core.choice smaller branches).InOrder) : (Core.choice budget branches).InOrder := by
  have hflat : AllInOrder (branches.flatMap Core.branchesOf) := by
    rw [allInOrder_iff] at hbranches ⊢
    intro h hh
    obtain ⟨branch, hbranch, hh⟩ := List.mem_flatMap.mp hh
    exact allInOrder_iff.mp (inOrder_branchesOf (hbranches branch hbranch)) h hh
  unfold Core.choice
  generalize branches.flatMap Core.branchesOf = flat at hflat
  split
  · exact apart_empty.rising.inOrder (Nat.zero_le 2)
  · exact hflat.1
  · split
    · next hclass => exact inOrder_classOf hflat hclass
    · split
      · next smaller rows hrows =>
        dsimp only
        split
        · exact hflat
        · exact inOrder_shared (inOrder_rows hflat hrows) (ih smaller rfl)
      · exact hflat

theorem inOrder_oneOf {branches : List Core} (hbranches : AllInOrder branches) :
    (Core.oneOf branches).InOrder := by
  unfold Core.oneOf
  generalize Core.size.sizeOfItems branches = budget
  -- what is left of rows without their shared start has a smaller budget
  induction budget generalizing branches with
  | zero => exact inOrder_choice_of_smaller hbranches fun _ h => by contradiction
  | succ budget ih =>
    exact inOrder_choice_of_smaller hbranches fun _ h _ hsmaller => by
      cases h
      exact ih hsmaller

/-! ## Patterns that are read -/

theorem inOrder_literal {l : Literal} {h : Core} (hlit : literal? m f l = some h) : h.InOrder := by
  unfold literal? at hlit
  split at hlit
  · obtain ⟨-, hlit⟩ := Option.ite_none_right_eq_some.mp hlit
    obtain rfl := Option.some.inj hlit
    trivial
  · dsimp only at hlit
    split at hlit
    · cases hlit
      exact inOrder_ofSet
        ((apart_foldCase (apart_single (Nat.le_refl _)).ordered).rising.inOrder (Nat.zero_le 2))
    · cases hlit
      trivial

theorem apart_lineEnds : (lineEnds f).Apart := by
  unfold lineEnds
  split
  · exact apart_empty
  · split
    · exact apart_ofRanges (by unfold AllOrdered; decide)
    · exact apart_ofRanges (by unfold AllOrdered; decide)

theorem inOrder_dot {h : Core} (hdot : dot? m f = some h) : h.InOrder := by
  unfold dot? at hdot
  split at hdot
  · contradiction
  · cases hdot
    exact inOrder_ofSet (apart_lineEnds.rising.compl.inOrder (Nat.le_succ 1))

mutual

/-- Every class of a pattern that is read is in order. -/
theorem Resolves.inOrder {ast : Ast} {f f' : Flags} {h : Core} (hr : Resolves m f ast h f')
    (hformed : ast.Formed) : h.InOrder := by
  cases hr with
  | empty => trivial
  | flags => trivial
  | literal hliteral => exact inOrder_literal hliteral
  | dot hdot => exact inOrder_dot hdot
  | assertion => trivial
  | property hs => exact inOrder_ofSet ((rising_property hs).inOrder (Nat.le_refl 2))
  | letter hs => exact inOrder_ofSet ((rising_letter hs).inOrder (Nat.le_refl 2))
  | bracketed hs ht =>
    have hapart := hs.apart (and_of_every hformed).2
    exact inOrder_ofSet ((rising_finish hapart.rising ht).inOrder (Nat.le_refl 2))
  | repetition hsub => exact inOrder_repeated (hsub.inOrder (and_of_every hformed).2)
  | @capture _ _ _ _ sub hsub =>
    have hinside : sub.InOrder := hsub.inOrder (and_of_every hformed).2
    exact hinside
  | plain hsub => exact hsub.inOrder (and_of_every hformed).2
  | alternation hbranches => exact inOrder_oneOf (hbranches.inOrder (and_of_every hformed).2)
  | concat hitems => exact inOrder_inRow (hitems.inOrder (and_of_every hformed).2)

theorem ResolveAll.inOrder {asts : List Ast} {f f' : Flags} {hs : List Core}
    (hr : ResolveAll m f asts hs f')
    (hformed : everyPart Ast.isFormed ClassSet.isFormed asts = true) : AllInOrder hs := by
  cases hr with
  | nil => trivial
  | cons hitem hitems =>
    obtain ⟨hfirst, hrest⟩ := and_of_every hformed
    exact ⟨hitem.inOrder hfirst, hitems.inOrder hrest⟩

end

theorem inOrder_of_meaning {pattern : String} {ast : Ast} {h : Core}
    (hread : parse? pattern = some ast) (hmeaning : meaning? m ast = some h) : h.InOrder := by
  obtain ⟨after, hresolves⟩ := meaning_eq_some_iff.mp hmeaning
  exact hresolves.inOrder (formed_of_parse hread)

end FlowSafety.Pattern
