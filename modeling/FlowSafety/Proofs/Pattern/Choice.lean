import FlowSafety.Proofs.Pattern.Core

/-!
# Alternatives in their simple form

`Core.oneOf` turns alternatives of single characters into a class and puts what all alternatives
begin with in front of them. What they take stays the same.

* `classOf_spec` — the class that alternatives amount to
* `prefix_of_sharedStart` — what is put in front is what they begin with
* `oneOf_spec` — alternatives take what one of them takes
-/

namespace FlowSafety.Pattern

variable {text : Array Char} {i j : Nat}

/-! ## Classes -/

/-- The values of the members of a list, each of which has one. -/
theorem each_eq_some {α β : Type} {f : α → Option β} {as : List α} {bs : List β}
    (h : Core.each? f as = some bs) :
    (∀ a ∈ as, ∃ b ∈ bs, f a = some b) ∧ ∀ b ∈ bs, ∃ a ∈ as, f a = some b := by
  induction as generalizing bs with
  | nil =>
    cases h
    exact ⟨fun _ ha => (List.not_mem_nil ha).elim, fun _ hb => (List.not_mem_nil hb).elim⟩
  | cons a as ih =>
    obtain ⟨b, hb, h⟩ := Option.bind_eq_some_iff.mp h
    obtain ⟨bs', hbs, rfl⟩ := Option.map_eq_some_iff.mp h
    obtain ⟨hvalue, hsource⟩ := ih hbs
    refine ⟨List.forall_mem_cons.mpr ⟨⟨b, List.mem_cons_self, hb⟩, fun a ha => ?_⟩,
      List.forall_mem_cons.mpr ⟨⟨a, List.mem_cons_self, hb⟩, fun b hb => ?_⟩⟩
    · obtain ⟨c, hc, hac⟩ := hvalue a ha
      exact ⟨c, List.mem_cons_of_mem _ hc, hac⟩
    · obtain ⟨c, hc, hcb⟩ := hsource b hb
      exact ⟨c, List.mem_cons_of_mem _ hc, hcb⟩

/-- Alternatives that are a class, when each takes the members of a set of its own. -/
theorem ofSet_spec {α : Type} {f : Core → Option α} {members : α → CodeSet} {d : Domain}
    {s : CodeSet} {branches : List Core} {as : List α} (has : Core.each? f branches = some as)
    (hs : ∀ n, s.contains n = true ↔ ∃ a ∈ as, (members a).contains n = true)
    (hdomain : IsDomainSet d s)
    (hbranch : ∀ h ∈ branches, ∀ a, f h = some a → ∀ i j, h.Takes text i j ↔
      Over text (fun c => (members a).contains c.toNat) i j) :
    (Core.ofSet d s).IsText ∧
      ∀ i j, (Core.ofSet d s).Takes text i j ↔ TakesOne text branches i j := by
  obtain ⟨hvalue, hsource⟩ := each_eq_some has
  refine ⟨isText_ofSet hdomain, fun i j => ?_⟩
  rw [takes_ofSet hdomain, takesOne_iff]
  constructor
  · rintro ⟨c, hc, hmem, hj⟩
    obtain ⟨a, ha, hmem⟩ := (hs _).mp hmem
    obtain ⟨h, hh, hfa⟩ := hsource a ha
    exact ⟨h, hh, (hbranch h hh a hfa i j).mpr ⟨c, hc, hmem, hj⟩⟩
  · rintro ⟨h, hh, htakes⟩
    obtain ⟨a, ha, hfa⟩ := hvalue h hh
    obtain ⟨c, hc, hmem, hj⟩ := (hbranch h hh a hfa i j).mp htakes
    exact ⟨c, hc, (hs _).mpr ⟨a, ha, hmem⟩, hj⟩

theorem eq_of_singleChar {h : Core} {n : Nat} (hn : h.singleChar? = some n) :
    ∃ c : Char, h = .literal (String.utf8EncodeChar c) ∧ n = c.toNat := by
  unfold Core.singleChar? at hn
  split at hn
  · rename_i bytes
    split at hn
    · rename_i c hc
      cases hn
      obtain ⟨s, hs, hlist⟩ := Option.map_eq_some_iff.mp hc
      unfold String.fromUTF8? at hs
      split at hs
      · obtain rfl := Option.some.inj hs
        have hstring := congrArg (fun s => s.toByteArray.data.toList)
          (String.ofList_toList.symm.trans (congrArg String.ofList hlist))
        rw [String.toByteArray_ofList] at hstring
        refine ⟨c, congrArg Core.literal ?_, rfl⟩
        simpa [String.fromUTF8, List.utf8Encode] using hstring
      · contradiction
    · contradiction
  · contradiction

/-- The characters of one byte are one. -/
theorem eq_of_encoded {cs : List Char} {b : UInt8} (h : encoded cs = [b]) :
    ∃ c, cs = [c] ∧ [b] = String.utf8EncodeChar c := by
  cases cs with
  | nil => contradiction
  | cons c cs =>
    have hcons : encoded (c :: cs) = String.utf8EncodeChar c ++ encoded cs := List.flatMap_cons
    obtain ⟨b', bytes, hb⟩ := List.exists_cons_of_ne_nil (String.utf8EncodeChar_ne_nil (c := c))
    rw [hcons, hb, List.cons_append, List.cons.injEq, List.append_eq_nil_iff] at h
    obtain ⟨rfl, rfl, hrest⟩ := h
    refine ⟨c, ?_, hb.symm⟩
    cases cs with
    | nil => rfl
    | cons d ds =>
      rw [show encoded (d :: ds) = String.utf8EncodeChar d ++ encoded ds from List.flatMap_cons,
        List.append_eq_nil_iff] at hrest
      exact absurd hrest.1 String.utf8EncodeChar_ne_nil

/-- The character of one byte has its value. -/
theorem toNat_of_encode {c : Char} {b : UInt8} (h : String.utf8EncodeChar c = [b]) :
    b.toNat = c.toNat ∧ b.toNat < 128 := by
  have hlength : (String.utf8EncodeChar c).length = 1 := by rw [h]; rfl
  rw [String.length_utf8EncodeChar, Char.utf8Size_eq_one_iff] at hlength
  have hlt : c.toNat < 128 := Nat.lt_succ_of_le hlength
  have hbytes : ∀ n < 128, String.utf8EncodeChar (Char.ofNat n) = [UInt8.ofNat n] := by
    decide
  have hb := hbytes c.toNat hlt
  rw [Char.ofNat_toNat, h] at hb
  obtain rfl := List.head_eq_of_cons_eq hb
  rw [UInt8.toNat_ofNat_of_lt' (by change _ < 256; omega)]
  exact ⟨rfl, hlt⟩

theorem eq_of_singleByte {h : Core} {n : Nat} (htext : h.IsText) (hn : h.singleByte? = some n) :
    ∃ c : Char, h = .literal (String.utf8EncodeChar c) ∧ n = c.toNat ∧ n < 128 := by
  unfold Core.singleByte? at hn
  split at hn
  · rename_i b
    cases hn
    obtain ⟨cs, hcs⟩ := htext
    obtain ⟨c, rfl, hbyte⟩ := eq_of_encoded hcs.symm
    obtain ⟨hvalue, hlt⟩ := toNat_of_encode hbyte.symm
    exact ⟨c, congrArg Core.literal hbyte, hvalue, hlt⟩
  · contradiction

/-- The set of one code. -/
abbrev single (n : Nat) : CodeSet := ⟨[(n, n)]⟩

theorem contains_codes {ns : List Nat} {n : Nat} :
    (Core.codes ns).contains n = true ↔ ∃ m ∈ ns, (single m).contains n = true := by
  rw [Core.codes, CodeSet.contains_ofRanges]
  simp [Covered, CodeSet.contains]

theorem contains_unionOf {ss : List CodeSet} {n : Nat} :
    (Core.unionOf ss).contains n = true ↔ ∃ s ∈ ss, s.contains n = true := by
  rw [Core.unionOf, CodeSet.contains_ofRanges]
  simp only [Covered, List.mem_flatMap, CodeSet.contains_iff]
  constructor
  · rintro ⟨r, ⟨s, hs, hr⟩, hn⟩
    exact ⟨s, hs, r, hr, hn⟩
  · rintro ⟨s, hs, r, hr, hn⟩
    exact ⟨r, ⟨s, hs, hr⟩, hn⟩

theorem isDomainSet_ofRanges {d : Domain} {rs : List (Nat × Nat)}
    (h : ∀ r ∈ rs, r.1.isValidChar ∧ r.1 ≤ r.2 ∧ (d = .bytes → r.2 < 128)) :
    IsDomainSet d (.ofRanges rs) := by
  intro r hr
  have hends := CodeSet.ends_ofRanges (P := Nat.isValidChar) (Q := fun n => d = .bytes → n < 128)
    (fun t ht => ⟨(h t ht).1, (h t ht).2.2⟩) r hr
  exact ⟨hends.1, CodeSet.ordered_ofRanges (fun t ht => (h t ht).2.1) r hr, hends.2⟩

theorem isDomainSet_codes {d : Domain} {ns : List Nat}
    (h : ∀ n ∈ ns, n.isValidChar ∧ (d = .bytes → n < 128)) : IsDomainSet d (Core.codes ns) := by
  refine isDomainSet_ofRanges ?_
  intro r hr
  obtain ⟨n, hn, rfl⟩ := List.mem_map.mp hr
  exact ⟨(h n hn).1, Nat.le_refl n, (h n hn).2⟩

theorem isDomainSet_unionOf {d : Domain} {ss : List CodeSet} (h : ∀ s ∈ ss, IsDomainSet d s) :
    IsDomainSet d (Core.unionOf ss) := by
  refine isDomainSet_ofRanges ?_
  intro r hr
  obtain ⟨s, hs, hr⟩ := List.mem_flatMap.mp hr
  exact h s hs r hr

theorem characterSet_spec {h : Core} {s : CodeSet} (htext : h.IsText)
    (hs : h.characterSet? = some s) :
    IsDomainSet .characters s ∧
      ∀ i j, h.Takes text i j ↔ Over text (fun c => s.contains c.toNat) i j := by
  unfold Core.characterSet? at hs
  split at hs
  · cases hs
    exact ⟨htext, fun i j => over_congr fun c _ => isMember_iff htext⟩
  · split at hs
    · cases hs
      refine ⟨fun r hr => ?_, fun i j => over_congr fun c _ => isMember_iff htext⟩
      obtain ⟨hvalid, hle, -⟩ := htext r hr
      exact ⟨hvalid, hle, fun h => by contradiction⟩
    · contradiction
  · contradiction

theorem byteSet_spec {h : Core} {s : CodeSet} (htext : h.IsText) (hs : h.byteSet? = some s) :
    IsDomainSet .bytes s ∧
      ∀ i j, h.Takes text i j ↔ Over text (fun c => s.contains c.toNat) i j := by
  unfold Core.byteSet? at hs
  split at hs
  · cases hs
    exact ⟨htext, fun i j => over_congr fun c _ => isMember_iff htext⟩
  · split at hs
    · rename_i hascii
      cases hs
      refine ⟨fun r hr => ?_, fun i j => over_congr fun c _ => isMember_iff htext⟩
      obtain ⟨hvalid, hle, -⟩ := htext r hr
      have hlast : r.2 ≤ 0x7F := by
        rw [CodeSet.isAscii, List.all_eq_true] at hascii
        exact of_decide_eq_true (hascii r hr)
      exact ⟨hvalid, hle, fun _ => Nat.lt_succ_of_le hlast⟩
    · contradiction
  · contradiction

theorem takes_char_single {c : Char} :
    (Core.literal (String.utf8EncodeChar c)).Takes text i j ↔
      Over text (fun d => (single c.toNat).contains d.toNat) i j := by
  rw [takes_char]
  refine over_congr fun d _ => ?_
  rw [Bool.eq_iff_iff, decide_eq_true_eq, CodeSet.contains_single, ← Char.toNat_inj]
  omega

/-- The class that alternatives amount to takes what one of them takes. -/
theorem classOf_spec {branches : List Core} {h : Core} (htext : AreText branches)
    (hclass : Core.classOf? branches = some h) :
    h.IsText ∧ ∀ i j, h.Takes text i j ↔ TakesOne text branches i j := by
  rw [areText_iff] at htext
  unfold Core.classOf? at hclass
  rw [Option.or_eq_some_iff, Option.or_eq_some_iff, Option.or_eq_some_iff] at hclass
  rcases hclass with hclass | ⟨-, hclass | ⟨-, hclass | ⟨-, hclass⟩⟩⟩
  · obtain ⟨ns, hns, rfl⟩ := Option.map_eq_some_iff.mp hclass
    refine ofSet_spec hns (fun n => contains_codes) ?_ ?_
    · refine isDomainSet_codes fun n hn => ?_
      obtain ⟨h, -, hn⟩ := (each_eq_some hns).2 n hn
      obtain ⟨c, -, rfl⟩ := eq_of_singleChar hn
      exact ⟨c.valid, fun h => by contradiction⟩
    · intro h hh n hn i j
      obtain ⟨c, rfl, rfl⟩ := eq_of_singleChar hn
      exact takes_char_single
  · obtain ⟨ns, hns, rfl⟩ := Option.map_eq_some_iff.mp hclass
    refine ofSet_spec hns (fun n => contains_codes) ?_ ?_
    · refine isDomainSet_codes fun n hn => ?_
      obtain ⟨h, hh, hn⟩ := (each_eq_some hns).2 n hn
      obtain ⟨c, -, -, hlt⟩ := eq_of_singleByte (htext h hh) hn
      exact ⟨isValidChar_of_lt hlt, fun _ => hlt⟩
    · intro h hh n hn i j
      obtain ⟨c, rfl, rfl, -⟩ := eq_of_singleByte (htext h hh) hn
      exact takes_char_single
  · obtain ⟨ss, hss, rfl⟩ := Option.map_eq_some_iff.mp hclass
    refine ofSet_spec hss (fun n => contains_unionOf) ?_ ?_
    · refine isDomainSet_unionOf fun s hs => ?_
      obtain ⟨h, hh, hs⟩ := (each_eq_some hss).2 s hs
      exact (@characterSet_spec text _ _ (htext h hh) hs).1
    · intro h hh s hs
      exact (characterSet_spec (htext h hh) hs).2
  · obtain ⟨ss, hss, rfl⟩ := Option.map_eq_some_iff.mp hclass
    refine ofSet_spec hss (fun n => contains_unionOf) ?_ ?_
    · refine isDomainSet_unionOf fun s hs => ?_
      obtain ⟨h, hh, hs⟩ := (each_eq_some hss).2 s hs
      exact (@byteSet_spec text _ _ (htext h hh) hs).1
    · intro h hh s hs
      exact (byteSet_spec (htext h hh) hs).2

/-! ## Common beginnings -/

mutual

theorem eq_of_same : ∀ {h h' : Core}, Core.same h h' = true → h = h'
  | .empty, h', heq => by cases h' <;> first | rfl | contradiction
  | .literal a, h', heq => by
    cases h' with
    | literal b => rw [eq_of_beq heq]
    | _ => contradiction
  | .set d s, h', heq => by
    cases h' with
    | set e t =>
      obtain ⟨hd, hs⟩ := Bool.and_eq_true_iff.mp heq
      rw [eq_of_beq hd, eq_of_beq hs]
    | _ => contradiction
  | .look l, h', heq => by
    cases h' with
    | look l' => rw [eq_of_beq heq]
    | _ => contradiction
  | .repetition min max greedy sub, h', heq => by
    cases h' with
    | repetition min' max' greedy' sub' =>
      simp only [Core.same, Bool.and_eq_true, beq_iff_eq] at heq
      obtain ⟨⟨⟨rfl, rfl⟩, rfl⟩, hsub⟩ := heq
      rw [eq_of_same hsub]
    | _ => contradiction
  | .capture index sub, h', heq => by
    cases h' with
    | capture index' sub' =>
      simp only [Core.same, Bool.and_eq_true, beq_iff_eq] at heq
      rw [heq.1, eq_of_same heq.2]
    | _ => contradiction
  | .concat items, h', heq => by
    cases h' with
    | concat items' => rw [@eq_of_sameAll items items' heq]
    | _ => contradiction
  | .alternation branches, h', heq => by
    cases h' with
    | alternation branches' => rw [@eq_of_sameAll branches branches' heq]
    | _ => contradiction

theorem eq_of_sameAll : ∀ {items items' : List Core}, Core.sameAll items items' = true →
    items = items'
  | [], items', heq => by cases items' <;> first | rfl | contradiction
  | item :: items, items', heq => by
    cases items' with
    | nil => contradiction
    | cons item' items' =>
      obtain ⟨hitem, hitems⟩ := Bool.and_eq_true_iff.mp heq
      rw [eq_of_same hitem, eq_of_sameAll hitems]

end

theorem prefix_of_commonStart {as bs : List Core} :
    Core.commonStart as bs <+: as ∧ Core.commonStart as bs <+: bs := by
  induction as generalizing bs with
  | nil => exact ⟨List.nil_prefix, List.nil_prefix⟩
  | cons a as ih =>
    cases bs with
    | nil => exact ⟨List.nil_prefix, List.nil_prefix⟩
    | cons b bs =>
      unfold Core.commonStart
      split
      · rename_i heq
        obtain rfl := eq_of_same heq
        exact ⟨List.cons_prefix_cons.mpr ⟨rfl, ih.1⟩, List.cons_prefix_cons.mpr ⟨rfl, ih.2⟩⟩
      · exact ⟨List.nil_prefix, List.nil_prefix⟩

theorem prefix_of_foldl {start : List Core} {rows : List (List Core)} :
    rows.foldl Core.commonStart start <+: start ∧
      ∀ row ∈ rows, rows.foldl Core.commonStart start <+: row := by
  induction rows generalizing start with
  | nil => exact ⟨List.prefix_rfl, fun _ h => (List.not_mem_nil h).elim⟩
  | cons row rows ih =>
    obtain ⟨hstart, hrows⟩ := @ih (Core.commonStart start row)
    rw [List.foldl_cons]
    exact ⟨hstart.trans prefix_of_commonStart.1,
      List.forall_mem_cons.mpr ⟨hstart.trans prefix_of_commonStart.2, hrows⟩⟩

theorem prefix_of_sharedStart {rows : List (List Core)} :
    ∀ row ∈ rows, Core.sharedStart rows <+: row := by
  cases rows with
  | nil => exact fun _ h => (List.not_mem_nil h).elim
  | cons row rows =>
    exact List.forall_mem_cons.mpr ⟨prefix_of_foldl.1, prefix_of_foldl.2⟩

theorem branchesOf_spec {h : Core} (htext : h.IsText) :
    AreText h.branchesOf ∧ ∀ i j, TakesOne text h.branchesOf i j ↔ h.Takes text i j := by
  unfold Core.branchesOf
  split
  · exact ⟨htext, fun _ _ => Iff.rfl⟩
  · exact ⟨⟨htext, trivial⟩, fun i j => by simp [TakesOne]⟩

theorem flatMap_branchesOf {branches : List Core} (htext : AreText branches) :
    AreText (branches.flatMap Core.branchesOf) ∧
      ∀ i j, TakesOne text (branches.flatMap Core.branchesOf) i j ↔ TakesOne text branches i j := by
  rw [areText_iff] at htext
  constructor
  · rw [areText_iff]
    intro h hh
    obtain ⟨h', hh', hh⟩ := List.mem_flatMap.mp hh
    exact areText_iff.mp (@branchesOf_spec text _ (htext h' hh')).1 h hh
  · intro i j
    simp only [takesOne_iff, List.mem_flatMap]
    constructor
    · rintro ⟨h, ⟨h', hh', hh⟩, htakes⟩
      have hone := takesOne_iff.mpr ⟨h, hh, htakes⟩
      exact ⟨h', hh', ((branchesOf_spec (htext h' hh')).2 i j).mp hone⟩
    · rintro ⟨h', hh', htakes⟩
      obtain ⟨h, hh, htakes⟩ :=
        takesOne_iff.mp (((branchesOf_spec (htext h' hh')).2 i j).mpr htakes)
      exact ⟨h, ⟨h', hh', hh⟩, htakes⟩

/-- What rows begin with may stand in front of the rest. -/
theorem takesAll_shared {shared : List Core} {rows : List (List Core)}
    (hshared : ∀ row ∈ rows, shared <+: row) :
    (∃ row ∈ rows, TakesAll text row i j) ↔
      ∃ k, TakesAll text shared i k ∧
        ∃ row ∈ rows, TakesAll text (row.drop shared.length) k j := by
  have hrow : ∀ row ∈ rows, row = shared ++ row.drop shared.length := by
    intro row hmem
    obtain ⟨rest, rfl⟩ := hshared row hmem
    rw [List.drop_left]
  constructor
  · rintro ⟨row, hmem, h⟩
    rw [hrow row hmem, takesAll_append] at h
    obtain ⟨k, hk, h⟩ := h
    exact ⟨k, hk, row, hmem, h⟩
  · rintro ⟨k, hk, row, hmem, h⟩
    refine ⟨row, hmem, ?_⟩
    rw [hrow row hmem, takesAll_append]
    exact ⟨k, hk, h⟩

theorem eq_of_row {h : Core} {row : List Core} (hrow : h.row? = some row) : h = .concat row := by
  unfold Core.row? at hrow
  split at hrow
  · rw [Option.some.inj hrow]
  · contradiction

/-- The rows that some alternatives are. -/
theorem rows_spec {branches : List Core} {rows : List (List Core)} (htext : AreText branches)
    (hrows : Core.each? Core.row? branches = some rows) :
    (∀ row ∈ rows, AreText row) ∧
      ∀ i j, TakesOne text branches i j ↔ ∃ row ∈ rows, TakesAll text row i j := by
  rw [areText_iff] at htext
  obtain ⟨hvalue, hsource⟩ := each_eq_some hrows
  constructor
  · intro row hmem
    obtain ⟨h, hh, hrow⟩ := hsource row hmem
    obtain rfl := eq_of_row hrow
    exact htext _ hh
  · intro i j
    rw [takesOne_iff]
    constructor
    · rintro ⟨h, hh, htakes⟩
      obtain ⟨row, hmem, hrow⟩ := hvalue h hh
      obtain rfl := eq_of_row hrow
      exact ⟨row, hmem, htakes⟩
    · rintro ⟨row, hmem, htakes⟩
      obtain ⟨h, hh, hrow⟩ := hsource row hmem
      obtain rfl := eq_of_row hrow
      exact ⟨_, hh, htakes⟩

/-- Rows without what they begin with, as alternatives. -/
theorem rests_spec {rows : List (List Core)} (n : Nat) (htext : ∀ row ∈ rows, AreText row) :
    AreText (rows.map fun row => Core.inRow (row.drop n)) ∧
      ∀ i j, TakesOne text (rows.map fun row => Core.inRow (row.drop n)) i j ↔
        ∃ row ∈ rows, TakesAll text (row.drop n) i j := by
  have hdrop : ∀ row ∈ rows, AreText (row.drop n) := by
    intro row hmem
    have := htext row hmem
    rw [areText_iff] at this ⊢
    exact fun h hh => this h (List.mem_of_mem_drop hh)
  constructor
  · rw [areText_iff, List.forall_mem_map]
    exact fun row hmem => (@inRow_spec text _ (hdrop row hmem)).1
  · intro i j
    rw [takesOne_iff]
    constructor
    · rintro ⟨h, hh, htakes⟩
      obtain ⟨row, hmem, rfl⟩ := List.mem_map.mp hh
      exact ⟨row, hmem, ((inRow_spec (hdrop row hmem)).2 i j).mp htakes⟩
    · rintro ⟨row, hmem, htakes⟩
      exact ⟨_, List.mem_map_of_mem hmem, ((inRow_spec (hdrop row hmem)).2 i j).mpr htakes⟩

theorem takesOne_singleton {h : Core} : TakesOne text [h] i j ↔ h.Takes text i j := by
  simp [TakesOne]

theorem areText_sharedStart {rows : List (List Core)} (htext : ∀ row ∈ rows, AreText row) :
    AreText (Core.sharedStart rows) := by
  cases rows with
  | nil => trivial
  | cons row rows =>
    have hrow := htext row List.mem_cons_self
    rw [areText_iff] at hrow ⊢
    exact fun h hh => hrow h ((prefix_of_sharedStart row List.mem_cons_self).subset hh)

/-- Alternatives with what they begin with in front of them. -/
theorem shared_spec {budget : Nat} {branches : List Core} {rows : List (List Core)}
    (htext : AreText branches) (hrows : Core.each? Core.row? branches = some rows)
    (ih : ∀ {branches}, AreText branches → (Core.choice budget branches).IsText ∧
      ∀ i j, (Core.choice budget branches).Takes text i j ↔ TakesOne text branches i j) :
    let shared := Core.sharedStart rows
    let h := Core.inRow
      (shared ++ [Core.choice budget (rows.map fun row => Core.inRow (row.drop shared.length))])
    h.IsText ∧ ∀ i j, h.Takes text i j ↔ TakesOne text branches i j := by
  intro shared h
  obtain ⟨htexts, hone⟩ := @rows_spec text _ _ htext hrows
  obtain ⟨hrests, hrestsTakes⟩ := @rests_spec text _ shared.length htexts
  obtain ⟨hrest, hrestTakes⟩ := ih hrests
  have hlast : AreText [Core.choice budget (rows.map fun row => Core.inRow
      (row.drop shared.length))] := ⟨hrest, trivial⟩
  obtain ⟨hrow, hrowTakes⟩ := @inRow_spec text _
    (areText_append (areText_sharedStart htexts) hlast)
  refine ⟨hrow, fun i j => ?_⟩
  rw [hrowTakes, takesAll_append, hone, takesAll_shared prefix_of_sharedStart]
  simp only [TakesAll, hrestTakes, hrestsTakes, exists_eq_right]
  rfl

theorem choice_of_smaller {budget : Nat} {branches : List Core} (htext : AreText branches)
    (ih : ∀ smaller, budget = smaller + 1 → ∀ {branches}, AreText branches →
      (Core.choice smaller branches).IsText ∧
        ∀ i j, (Core.choice smaller branches).Takes text i j ↔ TakesOne text branches i j) :
    (Core.choice budget branches).IsText ∧
      ∀ i j, (Core.choice budget branches).Takes text i j ↔ TakesOne text branches i j := by
  obtain ⟨hflat, hone⟩ := @flatMap_branchesOf text _ htext
  unfold Core.choice
  generalize branches.flatMap Core.branchesOf = flat at hflat hone
  split
  · refine ⟨isText_fail, fun i j => ?_⟩
    rw [← hone]
    exact ⟨fun h => (takes_fail h).elim, False.elim⟩
  · exact ⟨hflat.1, fun i j => by rw [← hone, takesOne_singleton]⟩
  · split
    · rename_i h hclass
      obtain ⟨hh, htakes⟩ := @classOf_spec text _ _ hflat hclass
      exact ⟨hh, fun i j => by rw [htakes, hone]⟩
    · split
      · rename_i smaller rows hrows
        dsimp only
        split
        · exact ⟨hflat, hone⟩
        · obtain ⟨hh, htakes⟩ := @shared_spec text _ _ _ hflat hrows (ih smaller rfl)
          exact ⟨hh, fun i j => by rw [← hone]; exact htakes i j⟩
      · exact ⟨hflat, hone⟩

theorem choice_spec {budget : Nat} {branches : List Core} (htext : AreText branches) :
    (Core.choice budget branches).IsText ∧
      ∀ i j, (Core.choice budget branches).Takes text i j ↔ TakesOne text branches i j := by
  induction budget generalizing branches with
  | zero => exact choice_of_smaller htext fun _ h => by contradiction
  | succ budget ih => exact choice_of_smaller htext fun _ h => by cases h; exact ih

/-- Alternatives take what one of them takes. -/
theorem oneOf_spec {branches : List Core} (htext : AreText branches) :
    (Core.oneOf branches).IsText ∧
      ∀ i j, (Core.oneOf branches).Takes text i j ↔ TakesOne text branches i j :=
  choice_spec htext

end FlowSafety.Pattern
