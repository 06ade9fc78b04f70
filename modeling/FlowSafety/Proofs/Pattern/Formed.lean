import FlowSafety.Proofs.Pattern.Resolve

/-!
# What is read is well-formed

The reader lets no range of a class and no repetition through whose ends are in the wrong order, and
what is written as a byte is one. The parts that are complete satisfy this at every turn, those of
the innermost group or bracket as well as those around it.

* `formed_of_class` — what is read of a class
* `Reader.IsFormed`, `Reader.IsFormed.step` — the invariant, and that a turn keeps it
* `formed_of_parse` — what is read of a whole pattern
-/

namespace FlowSafety.Pattern

/-! ## Parts -/

/-- What is written as a byte is one. -/
def Literal.isFormed (l : Literal) : Bool := !l.byte || l.char.toNat < 0x100

/-- The ends of a range are in order. -/
def ClassSet.isFormed : ClassSet → Bool
  | .literal l => l.isFormed
  | .range first last => first.char ≤ last.char && last.isFormed
  | _ => true

/-- The bounds of a repetition are in order. -/
def Ast.isFormed : Ast → Bool
  | .repetition min (some max) _ _ => min ≤ max
  | _ => true

/-- All parts of a class are well-formed. -/
def ClassSet.Formed (set : ClassSet) : Prop := set.every ClassSet.isFormed = true

/-- All parts of a pattern are well-formed. -/
def Ast.Formed (ast : Ast) : Prop := ast.every Ast.isFormed ClassSet.isFormed = true

theorem everyItem_iff {q : ClassSet → Bool} {items : List ClassSet} :
    everyItem q items = true ↔ ∀ item ∈ items, item.every q = true := by
  induction items with
  | nil => simp [everyItem]
  | cons item items ih => rw [everyItem, Bool.and_eq_true, ih, List.forall_mem_cons]

theorem everyPart_iff {p : Ast → Bool} {q : ClassSet → Bool} {items : List Ast} :
    everyPart p q items = true ↔ ∀ item ∈ items, item.every p q = true := by
  induction items with
  | nil => simp [everyPart]
  | cons item items ih => rw [everyPart, Bool.and_eq_true, ih, List.forall_mem_cons]

/-! ## Escapes -/

theorem digits_of_hexDigits {n : Nat} {s t : Cursor} {digits : List Char}
    (h : hexDigits? n s = some (digits, t)) :
    digits.length = n ∧ ∀ c ∈ digits, isHexDigit c = true := by
  induction n generalizing s digits with
  | zero =>
    cases h
    exact ⟨rfl, fun _ h => (List.not_mem_nil h).elim⟩
  | succ n ih =>
    unfold hexDigits? at h
    split at h
    · rename_i c cs hrest
      split at h
      · rename_i hdigit
        obtain ⟨⟨more, t⟩, hmore, heq⟩ := Option.map_eq_some_iff.mp h
        cases heq
        obtain ⟨hlength, hdigits⟩ := ih hmore
        exact ⟨congrArg (· + 1) hlength, List.forall_mem_cons.mpr ⟨hdigit, hdigits⟩⟩
      · contradiction
    · contradiction

theorem hexDigitValue_lt {c : Char} (h : isHexDigit c = true) : hexDigitValue c < 16 := by
  simp only [isHexDigit, Bool.or_eq_true, Bool.and_eq_true, decide_eq_true_eq, Char.isDigit,
    ge_iff_le, Char.le_def, UInt32.le_iff_toNat_le] at h
  simp only [hexDigitValue, Char.isDigit, Bool.and_eq_true, decide_eq_true_eq, ge_iff_le,
    UInt32.le_iff_toNat_le]
  have hnat : c.toNat = c.val.toNat := rfl
  rw [hnat]
  simp only [Char.reduceVal, UInt32.reduceToNat] at h ⊢
  split
  · omega
  · split <;> omega

theorem hexValue_lt {digits : List Char} (h : ∀ c ∈ digits, isHexDigit c = true) (n : Nat) :
    digits.foldl (fun n c => 16 * n + hexDigitValue c) n < Nat.pow 16 digits.length * (n + 1) := by
  induction digits generalizing n with
  | nil => simp
  | cons c digits ih =>
    obtain ⟨hc, hrest⟩ := List.forall_mem_cons.mp h
    have hvalue := hexDigitValue_lt hc
    calc (c :: digits).foldl (fun n c => 16 * n + hexDigitValue c) n
        < 16 ^ digits.length * (16 * n + hexDigitValue c + 1) := ih hrest _
      _ ≤ 16 ^ digits.length * (16 * (n + 1)) := Nat.mul_le_mul_left _ (by omega)
      _ = 16 ^ (c :: digits).length * (n + 1) := by
        rw [List.length_cons, Nat.pow_succ, Nat.mul_assoc]

theorem toNat_of_charOfHex {digits : List Char} {c : Char} (h : charOfHex? digits = some c) :
    c.toNat = digits.foldl (fun n c => 16 * n + hexDigitValue c) 0 := by
  unfold charOfHex? at h
  dsimp only at h
  split at h
  · rename_i hvalid
    cases h
    refine CharClass.toNat_ofNat ?_
    unfold Nat.isValidChar
    omega
  · contradiction

theorem isFormed_of_hexLiteral {width : Nat} {s t : Cursor} {l : Literal}
    (h : hexLiteral? width s = some (l, t)) : l.isFormed = true := by
  unfold hexLiteral? at h
  split at h
  · dsimp only at h
    split at h
    · split at h
      · contradiction
      · obtain ⟨c, -, heq⟩ := Option.map_eq_some_iff.mp h
        cases heq
        rfl
    · contradiction
  · contradiction
  · obtain ⟨⟨digits, t'⟩, hdigits, h⟩ := Option.bind_eq_some_iff.mp h
    obtain ⟨c, hc, heq⟩ := Option.map_eq_some_iff.mp h
    cases heq
    rw [Literal.isFormed, Bool.or_eq_true, Bool.not_eq_true', decide_eq_false_iff_not,
      decide_eq_true_eq, Classical.or_iff_not_imp_left, not_not]
    intro hwidth
    obtain ⟨hlength, hall⟩ := digits_of_hexDigits hdigits
    have hlt := hexValue_lt hall 0
    rw [hlength, hwidth] at hlt
    rw [toNat_of_charOfHex hc]
    exact hlt

/-- What a backslash starts may stand in a class. -/
def Primitive.IsFormed : Primitive → Prop
  | .literal l => l.isFormed = true
  | _ => True

theorem isFormed_of_propertyClass {negated : Bool} {s t : Cursor} {p : Primitive}
    (h : propertyClass? negated s = some (p, t)) : p.IsFormed := by
  unfold propertyClass? at h
  split at h
  · contradiction
  · dsimp only at h
    split at h
    · cases h
      trivial
    · contradiction
  · contradiction
  · cases h
    trivial

theorem isFormed_of_digits {width : Nat} {s t : Cursor} {p : Primitive}
    (h : (hexLiteral? width s).map (fun r => (Primitive.literal r.1, r.2)) = some (p, t)) :
    p.IsFormed := by
  obtain ⟨⟨l, t⟩, hl, heq⟩ := Option.map_eq_some_iff.mp h
  cases heq
  exact isFormed_of_hexLiteral hl

theorem isFormed_of_escape {s t : Cursor} {p : Primitive} (h : escape? s = some (p, t)) :
    p.IsFormed := by
  unfold escape? at h
  split at h
  · contradiction
  · dsimp only at h
    split at h
    case h_1 | h_2 | h_3 => exact isFormed_of_digits h
    case h_4 | h_5 => exact isFormed_of_propertyClass h
    case h_20 =>
      obtain ⟨r, -, heq⟩ := Option.map_eq_some_iff.mp h
      cases heq
      trivial
    case h_24 =>
      split at h
      · cases h
        rfl
      · contradiction
    all_goals
      cases h
      trivial

/-! ## Classes -/

theorem isFormed_of_classPrimitive {s t : Cursor} {p : Primitive}
    (h : classPrimitive? s = some (p, t)) : p.IsFormed := by
  unfold classPrimitive? at h
  split at h
  · contradiction
  · exact isFormed_of_escape h
  · cases h
    rfl

theorem formed_of_classItem {s t : Cursor} {item : ClassSet} (h : classItem? s = some (item, t)) :
    item.Formed := by
  obtain ⟨⟨first, s'⟩, hfirst, h⟩ := Option.bind_eq_some_iff.mp h
  have hfirst := isFormed_of_classPrimitive hfirst
  dsimp only at h
  split at h
  · contradiction
  · split at h
    · obtain ⟨set, hset, heq⟩ := Option.map_eq_some_iff.mp h
      cases heq
      cases first with
      | literal l =>
        cases hset
        exact hfirst
      | property query negated =>
        cases hset
        rfl
      | letter kind negated =>
        cases hset
        rfl
      | _ => contradiction
    · obtain ⟨⟨last, s''⟩, hlast, h⟩ := Option.bind_eq_some_iff.mp h
      have hlast := isFormed_of_classPrimitive hlast
      obtain ⟨l, hl, h⟩ := Option.bind_eq_some_iff.mp h
      obtain ⟨m, hm, h⟩ := Option.bind_eq_some_iff.mp h
      split at h
      · rename_i hle
        cases h
        cases last with
        | literal l' =>
          cases hm
          exact Bool.and_eq_true_iff.mpr ⟨decide_eq_true hle, hlast⟩
        | _ => contradiction
      · contradiction

theorem formed_of_classNamed {negated : Bool} {cs rest : List Char} {item : ClassSet}
    (h : classNamed? negated cs = some (item, rest)) : item.Formed := by
  unfold classNamed? at h
  split at h
  · obtain ⟨kind, -, heq⟩ := Option.map_eq_some_iff.mp h
    cases heq
    rfl
  · contradiction

theorem formed_of_namedClass {cs rest : List Char} {item : ClassSet}
    (h : namedClass? cs = some (item, rest)) : item.Formed := by
  unfold namedClass? at h
  split at h
  · exact formed_of_classNamed h
  · exact formed_of_classNamed h
  · contradiction

theorem formed_of_leadingDashes {n : Nat} {s : Cursor} :
    ∀ item ∈ (leadingDashes n s).1, item.Formed := by
  induction n generalizing s with
  | zero => exact fun _ h => (List.not_mem_nil h).elim
  | succ n ih =>
    unfold leadingDashes
    split
    · exact List.forall_mem_cons.mpr ⟨rfl, ih⟩
    · exact fun _ h => (List.not_mem_nil h).elim

theorem formed_of_firstItems {dashes items : List ClassSet} {s t : Cursor}
    (hdashes : ∀ item ∈ dashes, item.Formed) (h : firstItems? dashes s = some (items, t)) :
    ∀ item ∈ items, item.Formed := by
  unfold firstItems? at h
  split at h
  · contradiction
  · split at h
    · dsimp only at h
      split at h
      · contradiction
      · cases h
        exact List.forall_mem_singleton.mpr rfl
    · cases h
      exact hdashes
  · cases h
    exact hdashes

theorem openBracket_eq {s : Cursor} :
    openBracket? s =
      (firstItems?
        (leadingDashes (negation s.advanceSkip).2.rest.length (negation s.advanceSkip).2).1
        (leadingDashes (negation s.advanceSkip).2.rest.length (negation s.advanceSkip).2).2).map
          fun r => ((negation s.advanceSkip).1, r) := rfl

theorem formed_of_openBracket {s t : Cursor} {negated : Bool} {items : List ClassSet}
    (h : openBracket? s = some (negated, items, t)) : ∀ item ∈ items, item.Formed := by
  rw [openBracket_eq] at h
  obtain ⟨⟨items', t'⟩, hfirst, heq⟩ := Option.map_eq_some_iff.mp h
  rw [Prod.mk.injEq, Prod.mk.injEq] at heq
  obtain ⟨-, rfl, -⟩ := heq
  exact formed_of_firstItems formed_of_leadingDashes hfirst

theorem formed_setOfItems {items : List ClassSet} (h : ∀ item ∈ items, item.Formed) :
    (setOfItems items).Formed := by
  unfold setOfItems
  split
  · rfl
  · exact h _ (List.mem_singleton_self _)
  · refine Bool.and_eq_true_iff.mpr ⟨rfl, everyItem_iff.mpr fun item hitem => ?_⟩
    exact h item (List.mem_reverse.mp hitem)

/-- The parts of an open bracket, and those around it, are well-formed. -/
structure OpenBracket.IsFormed (b : OpenBracket) : Prop where
  left : ∀ op set, b.pending = some (op, set) → set.Formed
  outer : ∀ item ∈ b.outer, item.Formed

theorem OpenBracket.IsFormed.close {b : OpenBracket} (hb : b.IsFormed) {set : ClassSet}
    (hset : set.Formed) : (b.close set).Formed := by
  unfold OpenBracket.close
  split
  · rename_i op left hpending
    exact Bool.and_eq_true_iff.mpr ⟨rfl, Bool.and_eq_true_iff.mpr ⟨hb.left op left hpending, hset⟩⟩
  · exact hset

theorem formed_bracketed {negated : Bool} {set : ClassSet} (h : set.Formed) :
    (ClassSet.bracketed negated set).Formed :=
  Bool.and_eq_true_iff.mpr ⟨rfl, h⟩

theorem formed_of_classFrom {n : Nat} {b : OpenBracket} {around : List OpenBracket}
    {items : List ClassSet} {s t : Cursor} {ast : Ast} (hb : b.IsFormed)
    (haround : ∀ b ∈ around, b.IsFormed) (hitems : ∀ item ∈ items, item.Formed)
    (h : classFrom? n b around items s = some (ast, t)) : ast.Formed := by
  induction n generalizing b around items s with
  | zero => contradiction
  | succ n ih =>
    unfold classFrom? at h
    dsimp only at h
    split at h
    · contradiction
    · split at h
      · rename_i item rest hnamed
        exact ih hb haround (List.forall_mem_cons.mpr ⟨formed_of_namedClass hnamed, hitems⟩) h
      · obtain ⟨⟨negated, inner, s'⟩, hopen, h⟩ := Option.bind_eq_some_iff.mp h
        refine ih ⟨fun _ _ h => by contradiction, hitems⟩
          (List.forall_mem_cons.mpr ⟨hb, haround⟩) ?_ h
        intro item hitem
        exact formed_of_openBracket hopen item (List.mem_reverse.mp hitem)
    · have hset := hb.close (formed_setOfItems hitems)
      split at h
      · cases h
        exact Bool.and_eq_true_iff.mpr ⟨rfl, hset⟩
      · rename_i outer around
        obtain ⟨houter, haround⟩ := List.forall_mem_cons.mp haround
        exact ih houter haround (List.forall_mem_cons.mpr ⟨formed_bracketed hset, hb.outer⟩) h
    · split at h
      · rename_i op hop
        have hpending : OpenBracket.IsFormed
            { b with pending := some (op, b.close (setOfItems items)) } := by
          refine ⟨fun _ _ heq => ?_, hb.outer⟩
          cases heq
          exact hb.close (formed_setOfItems hitems)
        exact ih hpending haround (fun _ h => (List.not_mem_nil h).elim) h
      · obtain ⟨⟨item, s'⟩, hitem, h⟩ := Option.bind_eq_some_iff.mp h
        exact ih hb haround (List.forall_mem_cons.mpr ⟨formed_of_classItem hitem, hitems⟩) h

theorem formed_of_class {s t : Cursor} {ast : Ast} (h : class? s = some (ast, t)) : ast.Formed := by
  obtain ⟨⟨negated, items, s'⟩, hopen, h⟩ := Option.bind_eq_some_iff.mp h
  refine formed_of_classFrom ⟨fun _ _ h => by contradiction, fun _ h => (List.not_mem_nil h).elim⟩
    (fun _ h => (List.not_mem_nil h).elim) ?_ h
  intro item hitem
  exact formed_of_openBracket hopen item (List.mem_reverse.mp hitem)

/-! ## Patterns -/

theorem formed_toAst (p : Primitive) : p.toAst.Formed := by cases p <;> rfl

theorem formed_ofItems {items : List Ast} (h : ∀ item ∈ items, item.Formed) :
    (Ast.ofItems items).Formed := by
  unfold Ast.ofItems
  split
  · rfl
  · exact h _ (List.mem_singleton_self _)
  · exact Bool.and_eq_true_iff.mpr ⟨rfl, everyPart_iff.mpr h⟩

theorem formed_ofBranches {branches : List Ast} (h : ∀ branch ∈ branches, branch.Formed) :
    (Ast.ofBranches branches).Formed := by
  unfold Ast.ofBranches
  split
  · rfl
  · exact h _ (List.mem_singleton_self _)
  · exact Bool.and_eq_true_iff.mpr ⟨rfl, everyPart_iff.mpr h⟩

/-- The parts that are complete are well-formed. -/
structure Parts.IsFormed (p : Parts) : Prop where
  branches : ∀ branch ∈ p.branches, branch.Formed
  items : ∀ item ∈ p.items, item.Formed

namespace Parts.IsFormed

variable {p : Parts}

theorem nil : Parts.IsFormed {} :=
  ⟨fun _ h => (List.not_mem_nil h).elim, fun _ h => (List.not_mem_nil h).elim⟩

theorem push (hp : p.IsFormed) {item : Ast} (h : item.Formed) : (p.push item).IsFormed :=
  ⟨hp.branches, List.forall_mem_cons.mpr ⟨h, hp.items⟩⟩

theorem lastBranch (hp : p.IsFormed) : (Ast.ofItems p.items.reverse).Formed :=
  formed_ofItems fun item h => hp.items item (List.mem_reverse.mp h)

theorem alternate (hp : p.IsFormed) : p.alternate.IsFormed :=
  ⟨List.forall_mem_cons.mpr ⟨hp.lastBranch, hp.branches⟩, fun _ h => (List.not_mem_nil h).elim⟩

theorem close (hp : p.IsFormed) : p.close.Formed := by
  refine formed_ofBranches fun branch h => ?_
  rcases List.mem_cons.mp (List.mem_reverse.mp h) with rfl | h
  · exact hp.lastBranch
  · exact hp.branches branch h

end Parts.IsFormed

/-- All parts that are complete are well-formed, those around an open group as well. -/
structure Reader.IsFormed (r : Reader) : Prop where
  parts : r.parts.IsFormed
  groups : ∀ g ∈ r.groups, g.outer.IsFormed

namespace Reader.IsFormed

variable {r r' : Reader}

theorem item (hr : r.IsFormed) {ast : Ast} (h : ast.Formed) (s : Cursor) :
    (r.item ast s).IsFormed :=
  ⟨hr.parts.push h, hr.groups⟩

theorem enterCapture (hr : r.IsFormed) (s : Cursor) : (r.enterCapture s).IsFormed :=
  ⟨.nil, List.forall_mem_cons.mpr ⟨hr.parts, hr.groups⟩⟩

theorem enterNamed (hr : r.IsFormed) {s : Cursor} (h : r.enterNamed? s = some r') :
    r'.IsFormed := by
  obtain ⟨⟨name, rest⟩, -, h⟩ := Option.bind_eq_some_iff.mp h
  dsimp only at h
  split at h
  · contradiction
  · cases h
    exact ⟨.nil, List.forall_mem_cons.mpr ⟨hr.parts, hr.groups⟩⟩

theorem openFlags (hr : r.IsFormed) {s : Cursor} (h : r.openFlags? s = some r') :
    r'.IsFormed := by
  obtain ⟨⟨change, stop, rest⟩, -, h⟩ := Option.bind_eq_some_iff.mp h
  dsimp only at h
  split at h
  · cases h
    exact ⟨.nil, List.forall_mem_cons.mpr ⟨hr.parts, hr.groups⟩⟩
  · split at h
    · contradiction
    · cases h
      have hflags : (Ast.flags change).Formed := rfl
      exact hr.item hflags _

theorem openGroup (hr : r.IsFormed) (h : r.openGroup? = some r') : r'.IsFormed := by
  unfold openGroup? at h
  dsimp only at h
  split at h
  · unfold openMarked? at h
    split at h
    · exact hr.enterNamed h
    · split at h
      · contradiction
      · exact hr.enterNamed h
    · exact hr.openFlags h
  · cases h
    exact hr.enterCapture _

theorem closeGroup (hr : r.IsFormed) (h : r.closeGroup? = some r') : r'.IsFormed := by
  unfold closeGroup? at h
  split at h
  · contradiction
  · rename_i g groups hgroups
    cases h
    have hall := hr.groups
    rw [hgroups] at hall
    obtain ⟨houter, hrest⟩ := List.forall_mem_cons.mp hall
    have hgroup : (Ast.group g.kind r.parts.close).Formed :=
      Bool.and_eq_true_iff.mpr ⟨rfl, hr.parts.close⟩
    exact ⟨houter.push hgroup, hrest⟩

theorem repetition (hr : r.IsFormed) {min : Nat} {max : Option Nat} {s : Cursor}
    (hbounds : ∀ m, max = some m → min ≤ m) (h : r.repeat? min max s = some r') :
    r'.IsFormed := by
  unfold repeat? at h
  split at h
  · rename_i sub items hitems
    split at h
    · dsimp only at h
      cases h
      have hall := hr.parts.items
      rw [hitems] at hall
      obtain ⟨hsub, hrest⟩ := List.forall_mem_cons.mp hall
      refine ⟨⟨hr.parts.branches, List.forall_mem_cons.mpr ⟨?_, hrest⟩⟩, hr.groups⟩
      refine Bool.and_eq_true_iff.mpr ⟨?_, hsub⟩
      cases max with
      | none => rfl
      | some m => exact decide_eq_true (hbounds m rfl)
    · contradiction
  · contradiction

theorem ordered_of_boundsFrom {least : Option Nat} {min : Nat} {max : Option Nat} {s t : Cursor}
    (h : boundsFrom? least s = some ((min, max), t)) : ∀ m, max = some m → min ≤ m := by
  unfold boundsFrom? at h
  split at h
  · obtain ⟨n, -, heq⟩ := Option.map_eq_some_iff.mp h
    cases heq
    exact fun _ h => by contradiction
  · dsimp only at h
    split at h
    · split at h
      · rename_i hle
        cases h
        rintro m hm
        cases hm
        exact hle
      · contradiction
    · contradiction

theorem ordered_of_bounds {min : Nat} {max : Option Nat} {s t : Cursor}
    (h : bounds? s = some ((min, max), t)) : ∀ m, max = some m → min ≤ m := by
  unfold bounds? at h
  dsimp only at h
  split at h
  · exact ordered_of_boundsFrom h
  · obtain ⟨n, -, heq⟩ := Option.map_eq_some_iff.mp h
    cases heq
    rintro m hm
    cases hm
    exact Nat.le_refl _
  · contradiction

/-- A turn keeps the parts well-formed. -/
theorem step (hr : r.IsFormed) (h : r.step? = some r') : r'.IsFormed := by
  unfold step? at h
  dsimp only at h
  split at h
  · contradiction
  · split at h
    case h_1 => exact hr.openGroup h
    case h_2 => exact hr.closeGroup h
    case h_3 =>
      cases h
      exact ⟨hr.parts.alternate, hr.groups⟩
    case h_4 =>
      obtain ⟨⟨ast, s⟩, hclass, heq⟩ := Option.map_eq_some_iff.mp h
      cases heq
      exact hr.item (formed_of_class hclass) s
    case h_5 => exact hr.repetition (fun m hm => by cases hm; exact Nat.zero_le 1) h
    case h_6 | h_7 => exact hr.repetition (fun _ hm => by contradiction) h
    case h_8 =>
      obtain ⟨⟨⟨min, max⟩, s⟩, hbounds, h⟩ := Option.bind_eq_some_iff.mp h
      exact hr.repetition (ordered_of_bounds hbounds) h
    case h_9 =>
      obtain ⟨⟨p, s⟩, -, heq⟩ := Option.map_eq_some_iff.mp h
      cases heq
      exact hr.item (formed_toAst p) s
    all_goals
      cases h
      refine hr.item ?_ _
      exact rfl

theorem run {n : Nat} {ast : Ast} (hr : r.IsFormed) (h : r.run? n = some ast) : ast.Formed := by
  induction n generalizing r with
  | zero => contradiction
  | succ n ih =>
    unfold run? at h
    have hskip : Reader.IsFormed { r with cursor := r.cursor.skip } := ⟨hr.parts, hr.groups⟩
    dsimp only at h
    split at h
    · split at h
      · cases h
        exact hr.parts.close
      · contradiction
    · obtain ⟨r', hstep, h⟩ := Option.bind_eq_some_iff.mp h
      exact ih (hskip.step hstep) h

end Reader.IsFormed

/-- A pattern that is read is well-formed. -/
theorem formed_of_parse {pattern : String} {ast : Ast} (h : parse? pattern = some ast) :
    ast.Formed := by
  obtain ⟨ast', hrun, h⟩ := Option.bind_eq_some_iff.mp h
  split at h
  · cases h
    exact Reader.IsFormed.run ⟨.nil, fun _ h => (List.not_mem_nil h).elim⟩ hrun
  · contradiction

/-! ## Patterns that have a meaning in ASCII -/

section

variable {f f' : Flags}

theorem lt_of_code {l : Literal} {n : Nat} (hf : f.unicode = false) (hl : l.isFormed = true)
    (h : l.code? .ascii f = some n) : l.char.toNat < 0x100 := by
  unfold Literal.code? at h
  rw [hf] at h
  simp only [Bool.false_eq_true, if_false, decide_true, Bool.and_true] at h
  split at h
  · omega
  · split at h
    · rename_i hbyte
      rw [Literal.isFormed, hbyte] at hl
      simpa using hl
    · contradiction

mutual

/-- A class that is read in ASCII holds no property, and codes of one byte only. -/
theorem Denotes.isLatin {set : ClassSet} {s : CodeSet} (h : Denotes .ascii f set s)
    (hf : f.unicode = false) (hformed : set.Formed) : set.every ClassSet.isLatin = true := by
  cases h with
  | empty => rfl
  | literal hn => exact decide_eq_true (lt_of_code hf hformed hn)
  | range _ hb =>
    obtain ⟨hle, hlast⟩ := and_of_every hformed
    exact Bool.and_eq_true_iff.mpr ⟨hle, decide_eq_true (lt_of_code hf hlast hb)⟩
  | named _ => rfl
  | property hs =>
    rw [propertySet?, hf] at hs
    contradiction
  | letter _ => rfl
  | bracketed hs _ =>
    exact Bool.and_eq_true_iff.mpr ⟨rfl, hs.isLatin hf (and_of_every hformed).2⟩
  | union hrs => exact Bool.and_eq_true_iff.mpr ⟨rfl, hrs.isLatin hf (and_of_every hformed).2⟩
  | binary hs ht =>
    obtain ⟨hleft, hright⟩ := and_of_every (and_of_every hformed).2
    exact Bool.and_eq_true_iff.mpr
      ⟨rfl, Bool.and_eq_true_iff.mpr ⟨hs.isLatin hf hleft, ht.isLatin hf hright⟩⟩

theorem DenoteAll.isLatin {items : List ClassSet} {rs : List (Nat × Nat)}
    (h : DenoteAll .ascii f items rs) (hf : f.unicode = false)
    (hformed : everyItem ClassSet.isFormed items = true) :
    everyItem ClassSet.isLatin items = true := by
  cases h with
  | nil => rfl
  | cons hs hrs =>
    obtain ⟨hitem, hitems⟩ := and_of_every hformed
    exact Bool.and_eq_true_iff.mpr ⟨hs.isLatin hf hitem, hrs.isLatin hf hitems⟩

end

theorem unicode_change {change : FlagChange} (hf : f.unicode = false)
    (h : (!change.set.contains Flag.unicode) = true) : (f.change change).unicode = false :=
  hf ▸ FlagChange.apply_off h

mutual

/-- A pattern that has a meaning in ASCII, and does not ask for those of Unicode, is one that a
search and this meaning can agree on. -/
theorem Resolves.readable {ast : Ast} {f f' : Flags} {h : Core} (hr : Resolves .ascii f ast h f')
    (hf : f.unicode = false) (hformed : ast.Formed)
    (hascii : ast.every (Ast.leaves .unicode) (fun _ => true) = true) :
    ast.every Ast.isReadable ClassSet.isLatin = true ∧ f'.unicode = false := by
  cases hr with
  | flags => exact ⟨rfl, unicode_change hf hascii⟩
  | property hs =>
    rw [propertySet?, hf] at hs
    contradiction
  | bracketed hs _ =>
    exact ⟨Bool.and_eq_true_iff.mpr ⟨rfl, hs.isLatin hf (and_of_every hformed).2⟩, hf⟩
  | @repetition _ _ _ max _ _ _ hsub =>
    obtain ⟨hbounds, hformed⟩ := and_of_every hformed
    obtain ⟨hread, hafter⟩ := hsub.readable hf hformed (and_of_every hascii).2
    refine ⟨Bool.and_eq_true_iff.mpr ⟨?_, hread⟩, hafter⟩
    cases max with
    | none => rfl
    | some m => exact hbounds
  | capture hsub =>
    obtain ⟨hread, -⟩ := hsub.readable hf (and_of_every hformed).2 (and_of_every hascii).2
    exact ⟨Bool.and_eq_true_iff.mpr ⟨rfl, hread⟩, hf⟩
  | plain hsub =>
    obtain ⟨hchange, hascii⟩ := and_of_every hascii
    obtain ⟨hread, -⟩ :=
      hsub.readable (unicode_change hf hchange) (and_of_every hformed).2 hascii
    exact ⟨Bool.and_eq_true_iff.mpr ⟨rfl, hread⟩, hf⟩
  | alternation hbranches =>
    obtain ⟨hread, hafter⟩ :=
      hbranches.readable hf (and_of_every hformed).2 (and_of_every hascii).2
    exact ⟨Bool.and_eq_true_iff.mpr ⟨rfl, hread⟩, hafter⟩
  | concat hitems =>
    obtain ⟨hread, hafter⟩ := hitems.readable hf (and_of_every hformed).2 (and_of_every hascii).2
    exact ⟨Bool.and_eq_true_iff.mpr ⟨rfl, hread⟩, hafter⟩
  | _ => exact ⟨rfl, hf⟩

theorem ResolveAll.readable {items : List Ast} {f f' : Flags} {hs : List Core}
    (hr : ResolveAll .ascii f items hs f') (hf : f.unicode = false)
    (hformed : everyPart Ast.isFormed ClassSet.isFormed items = true)
    (hascii : everyPart (Ast.leaves .unicode) (fun _ => true) items = true) :
    everyPart Ast.isReadable ClassSet.isLatin items = true ∧ f'.unicode = false := by
  cases hr with
  | nil => exact ⟨rfl, hf⟩
  | cons hitem hitems =>
    obtain ⟨hformed, hformed'⟩ := and_of_every hformed
    obtain ⟨hascii, hascii'⟩ := and_of_every hascii
    obtain ⟨hread, hbetween⟩ := hitem.readable hf hformed hascii
    obtain ⟨hread', hafter⟩ := hitems.readable hbetween hformed' hascii'
    exact ⟨Bool.and_eq_true_iff.mpr ⟨hread, hread'⟩, hafter⟩

end

end

end FlowSafety.Pattern
