import FlowSafety.Proofs.Text.Joining
import Mathlib.Data.List.Sort

/-!
# Pieces in written order

A concatenation is computed from its tainted pieces, the literals before the first of them and those
behind it. The literals between two tainted pieces are moved to the end, and each length is added to
a sum that may stop to be a bound on the way. The result is the same as if the pieces were put
together one after another, as they are written, and the lengths added up at once.

* `TextGuarantee.Joint.foldl_add_of_split` — the joint of pieces that are split at the first tainted
  one
* `foldl_added_eq_some_iff` — lengths added one by one, and all at once
* `TextGuarantee.values_foldl_append`, `TextGuarantee.values_foldl_prepend` — literals beside known
  values
* `TextGuarantee.passThrough_in_written_order` — charset, length and values of a concatenation
-/

namespace FlowSafety

/-! ## Sets of texts -/

namespace TextSet

/-- Sets with the same texts are equal. -/
theorem eq_of_mem_iff {s s' : TextSet} (h : ∀ t, t ∈ s ↔ t ∈ s') : s = s' := by
  obtain ⟨us, hus⟩ := s
  obtain ⟨us', hus'⟩ := s'
  have hirrefl : Std.Irrefl fun t u => Text.before t u = true :=
    ⟨fun t ht => by rw [Text.before_irrefl] at ht; contradiction⟩
  have hantisymm : Std.Antisymm fun t u => Text.before t u = true :=
    ⟨fun t u htu hut => absurd (Text.before_trans htu hut) (hirrefl.irrefl t)⟩
  obtain rfl : us = us' := hus.eq_of_mem_iff hus' h
  rfl

theorem map_map (s : TextSet) (f f' : String → String) :
    (s.map f).map f' = s.map fun t => f' (f t) := by
  refine eq_of_mem_iff fun t => ?_
  simp only [mem_map]
  constructor
  · rintro ⟨_, ⟨u, hu, rfl⟩, rfl⟩
    exact ⟨u, hu, rfl⟩
  · rintro ⟨u, hu, rfl⟩
    exact ⟨f u, ⟨u, hu, rfl⟩, rfl⟩

theorem map_id (s : TextSet) : (s.map fun t => t) = s := by
  refine eq_of_mem_iff fun t => ?_
  rw [mem_map]
  exact ⟨fun ⟨u, hu, hut⟩ => hut ▸ hu, fun ht => ⟨t, ht, rfl⟩⟩

end TextSet

/-! ## Sums of lengths -/

/-- The sum of two lengths, if both are known and the sum fits. -/
def added (b b' : Option Nat) : Option Nat :=
  b.bind fun m => b'.bind fun n => Size.checked (m + n)

/-- The sum of lengths; one that is not known counts for nothing. -/
def total : List (Option Nat) → Nat
  | [] => 0
  | b :: bs => b.getD 0 + total bs

theorem foldl_added_none (bs : List (Option Nat)) : bs.foldl added none = none := by
  induction bs with
  | nil => rfl
  | cons b bs ih => exact ih

/-- A sum that does not fit on the way does not fit at the end. -/
theorem foldl_added_some {bs : List (Option Nat)} {m n : Nat} (hm : m ≤ Size.largest) :
    bs.foldl added (some m) = some n ↔
      (∀ b ∈ bs, b ≠ none) ∧ m + total bs = n ∧ n ≤ Size.largest := by
  induction bs generalizing m with
  | nil =>
    simp only [List.foldl_nil, Option.some.injEq, List.not_mem_nil, false_implies, implies_true,
      true_and]
    show m = n ↔ m + 0 = n ∧ n ≤ Size.largest
    omega
  | cons b bs ih =>
    rw [List.foldl_cons, List.forall_mem_cons]
    cases b with
    | none =>
      rw [show added (some m) none = none from rfl, foldl_added_none]
      simp
    | some k =>
      rw [show total (some k :: bs) = k + total bs from rfl]
      by_cases hfits : m + k ≤ Size.largest
      · have hadded : added (some m) (some k) = some (m + k) := if_pos hfits
        rw [hadded, ih hfits, Nat.add_assoc]
        simp
      · have hadded : added (some m) (some k) = none := if_neg hfits
        rw [hadded, foldl_added_none]
        simp only [reduceCtorEq, false_iff, not_and]
        omega

/-- Two lengths or more, added one by one, make what they make all at once. -/
theorem foldl_added_eq_some_iff {b : Option Nat} {bs : List (Option Nat)} {n : Nat}
    (hbs : bs ≠ []) :
    bs.foldl added b = some n ↔
      (∀ b' ∈ b :: bs, b' ≠ none) ∧ total (b :: bs) = n ∧ n ≤ Size.largest := by
  cases b with
  | none =>
    rw [foldl_added_none]
    simp
  | some m =>
    rw [List.forall_mem_cons, show total (some m :: bs) = m + total bs from rfl]
    by_cases hm : m ≤ Size.largest
    · rw [foldl_added_some hm]
      simp
    · -- the first length alone does not fit, so it is lost with the first addition
      obtain ⟨b, bs, rfl⟩ := List.exists_cons_of_ne_nil hbs
      have hadded : added (some m) b = none := by
        cases b with
        | none => rfl
        | some k => exact if_neg fun hfits => hm (Nat.le_trans (Nat.le_add_right m k) hfits)
      rw [List.foldl_cons, hadded, foldl_added_none]
      simp only [reduceCtorEq, false_iff, not_and]
      omega

theorem total_perm {bs bs' : List (Option Nat)} (h : bs.Perm bs') : total bs = total bs' := by
  induction h with
  | nil => rfl
  | cons b _ ih => exact congrArg (b.getD 0 + ·) ih
  | swap b b' bs => exact Nat.add_left_comm _ _ _
  | trans _ _ ih ih' => exact ih.trans ih'

/-! ## Pieces -/

namespace Piece

variable {g : TextGuarantee} {p : Piece}

def literal? : Piece → Option String
  | .literal s => some s
  | _ => none

def isLiteral (p : Piece) : Bool := p.literal?.isSome

/-- The most characters of what the piece stands for. A number stands for no text. -/
def bound? (current : TextGuarantee) : Piece → Option Nat
  | .current => current.maxLength
  | .literal s => some s.length
  | .int _ => some 0
  | .value (.text g) => g.maxLength
  | .value (.integer iv) => (TextGuarantee.ofInteger iv 10).maxLength

/-- What is written for the piece where the flowing text is known and nothing else is tainted. -/
def written (current : String) : Piece → String
  | .current => current
  | .literal s => s
  | _ => ""

theorem bound?_of_tainted {t : TextGuarantee} (h : p.tainted? g = some t) :
    p.bound? g = t.maxLength := by
  cases p with
  | literal s => contradiction
  | int v => contradiction
  | current =>
    obtain rfl := Option.some.inj h
    rfl
  | value v =>
    cases v with
    | text u =>
      obtain rfl := Option.some.inj h
      rfl
    | integer iv =>
      obtain rfl := Option.some.inj h
      rfl

/-- A piece that is no number is literal or tainted. -/
theorem literal_or_tainted (g : TextGuarantee) (h : p.isInt = false) :
    (∃ s, p = .literal s) ∨ ∃ t, p.tainted? g = some t := by
  cases p with
  | current => exact Or.inr ⟨g, rfl⟩
  | literal s => exact Or.inl ⟨s, rfl⟩
  | int v => contradiction
  | value v =>
    cases v with
    | text u => exact Or.inr ⟨u, rfl⟩
    | integer iv => exact Or.inr ⟨_, rfl⟩

theorem isLiteral_of_tainted {t : TextGuarantee} (h : p.tainted? g = some t) :
    p.isLiteral = false := by
  cases p with
  | literal s => contradiction
  | _ => rfl

theorem isLiteral_iff_not_tainted (g : TextGuarantee) (h : p.isInt = false) :
    p.isLiteral = true ↔ p.tainted? g = none := by
  rcases p.literal_or_tainted g h with ⟨s, rfl⟩ | ⟨t, ht⟩
  · exact ⟨fun _ => rfl, fun _ => rfl⟩
  · rw [isLiteral_of_tainted ht, ht]
    simp

end Piece

namespace TextGuarantee

variable {g h t : TextGuarantee} {p : Piece} {ps rest : List Piece} {texts : List String}

/-! ### Order -/

theorem not_isInt_of_mem_inOrder (hp : p ∈ inOrder ps) : p.isInt = false := by
  have hfilter (hp : p ∈ ps.filter (!·.isInt)) : p.isInt = false := by
    simpa using (List.mem_filter.mp hp).2
  unfold inOrder at hp
  split at hp
  · exact hfilter hp
  · rcases List.mem_cons.mp hp with rfl | hp
    · rfl
    · exact hfilter hp

/-- The literals in front, the first tainted piece, and the rest. -/
theorem exists_first_tainted (g : TextGuarantee) (hcurrent : .current ∈ ps)
    (hints : ∀ p ∈ ps, p.isInt = false) :
    ∃ (texts : List String) (p : Piece) (rest : List Piece) (t : TextGuarantee),
      ps = texts.map Piece.literal ++ p :: rest ∧ p.tainted? g = some t := by
  induction ps with
  | nil => simp at hcurrent
  | cons q ps ih =>
    rcases q.literal_or_tainted g (hints q List.mem_cons_self) with ⟨s, rfl⟩ | ⟨t, ht⟩
    · obtain ⟨texts, p, rest, t, rfl, ht⟩ :=
        ih ((List.mem_cons.mp hcurrent).resolve_left (by simp))
          fun p hp => hints p (List.mem_cons_of_mem _ hp)
      exact ⟨s :: texts, p, rest, t, rfl, ht⟩
    · exact ⟨[], q, ps, t, rfl, ht⟩

/-- Whatever is joined stands beside the flowing text. -/
theorem two_le_length_inOrder (hjoined : ps.any Piece.isJoined = true) :
    2 ≤ (inOrder ps).length := by
  obtain ⟨q, hq, hjoined⟩ := List.any_eq_true.mp hjoined
  have hint : q.isInt = false := by
    cases q with
    | int v => contradiction
    | _ => rfl
  have hmem := mem_inOrder hq hint
  have hcurrent := current_mem_inOrder ps
  rcases horder : inOrder ps with _ | ⟨p, _ | ⟨p', rest⟩⟩
  · rw [horder] at hmem
    simp at hmem
  · rw [horder] at hmem hcurrent
    obtain rfl := List.mem_singleton.mp hmem
    obtain rfl := List.mem_singleton.mp hcurrent
    contradiction
  · exact Nat.le_add_left 2 _

/-! ### Joints -/

namespace Joint

theorem foldl_add_literals (j : Joint) (hj : j.tainted = none) :
    (texts.map Piece.literal).foldl (Joint.add g) j =
      { j with before := j.before ++ texts } := by
  induction texts generalizing j with
  | nil => simp
  | cons s texts ih =>
    have hadd : j.add g (.literal s) = { j with before := j.before ++ [s] } := by
      unfold add
      rw [hj]
      rfl
    rw [List.map_cons, List.foldl_cons, hadd, ih { j with before := j.before ++ [s] } hj]
    simp

theorem foldl_add_tainted (j : Joint) (hj : j.tainted = some t) :
    rest.foldl (Joint.add g) j =
      { tainted := some ((rest.filterMap (Piece.tainted? g)).foldl concat t)
        before := j.before
        behind := j.behind ++ rest.filterMap Piece.literal? } := by
  induction rest generalizing j t with
  | nil =>
    rw [List.filterMap_nil, List.filterMap_nil, List.append_nil, List.foldl_nil, List.foldl_nil,
      ← hj]
  | cons q rest ih =>
    rw [List.foldl_cons]
    -- a number changes nothing, a literal goes behind, and everything else is joined
    cases q with
    | int v => exact ih j hj
    | literal s =>
      have hadd : j.add g (.literal s) = { j with behind := j.behind ++ [s] } := by
        unfold add
        rw [hj]
        rfl
      rw [hadd, ih { j with behind := j.behind ++ [s] } hj, List.append_assoc]
      rfl
    | current =>
      have hadd : j.add g .current = { j with tainted := some (t.concat g) } := by
        simp only [add, join, hj]
      rw [hadd, ih _ rfl]
      rfl
    | value v =>
      cases v with
      | text u =>
        have hadd : j.add g (.value (.text u)) = { j with tainted := some (t.concat u) } := by
          simp only [add, join, hj]
        rw [hadd, ih _ rfl]
        rfl
      | integer iv =>
        have hadd : j.add g (.value (.integer iv)) =
            { j with tainted := some (t.concat (ofInteger iv 10)) } := by
          simp only [add, join, hj]
        rw [hadd, ih _ rfl]
        rfl

/-- The joint of a concatenation, split at its first tainted piece. -/
theorem foldl_add_of_split (ht : p.tainted? g = some t) :
    (texts.map Piece.literal ++ p :: rest).foldl (Joint.add g) {} =
      { tainted := some ((rest.filterMap (Piece.tainted? g)).foldl concat t)
        before := texts
        behind := rest.filterMap Piece.literal? } := by
  have hadd : ({ before := texts } : Joint).add g p = { tainted := some t, before := texts } := by
    cases p with
    | int v => contradiction
    | literal s => contradiction
    | current => cases ht; rfl
    | value v => cases v <;> (cases ht; rfl)
  rw [List.foldl_append, foldl_add_literals {} rfl, List.foldl_cons]
  show rest.foldl (Joint.add g) (({ before := texts } : Joint).add g p) = _
  rw [hadd, foldl_add_tainted _ rfl]
  rfl

end Joint

/-! ### Charsets -/

theorem charset_foldl_concat (gs : List TextGuarantee) :
    (gs.foldl concat t).charset = (gs.map (·.charset)).foldl Charset.concat t.charset := by
  induction gs generalizing t with
  | nil => rfl
  | cons u gs ih => exact ih

theorem charset_foldl_beside {length : String → Nat} {place : String → String → String} :
    (texts.foldl (fun g s => g.beside (length s) (place s)) g).charset = g.charset := by
  induction texts generalizing g with
  | nil => rfl
  | cons s texts ih => exact ih

theorem charset_around (before behind : List String) (g : TextGuarantee) :
    (behind.foldl append (before.foldl prepend g)).charset = g.charset :=
  charset_foldl_beside.trans charset_foldl_beside

/-! ### Lengths -/

theorem maxLength_foldl_concat (gs : List TextGuarantee) :
    (gs.foldl concat t).maxLength = (gs.map (·.maxLength)).foldl added t.maxLength := by
  induction gs generalizing t with
  | nil => rfl
  | cons u gs ih => exact ih

theorem maxLength_foldl_beside {length : String → Nat} {place : String → String → String} :
    (texts.foldl (fun g s => g.beside (length s) (place s)) g).maxLength =
      (texts.map fun s => some (length s)).foldl added g.maxLength := by
  induction texts generalizing g with
  | nil => rfl
  | cons s texts ih => exact ih

theorem maxLength_around (before behind : List String) (g : TextGuarantee) :
    (behind.foldl append (before.foldl prepend g)).maxLength =
      (before.map (fun s => some s.length) ++ behind.map fun s => some s.length).foldl added
        g.maxLength := by
  have hbefore : (before.foldl prepend g).maxLength =
      (before.map fun s => some s.length).foldl added g.maxLength := maxLength_foldl_beside
  rw [List.foldl_append, ← hbefore]
  exact maxLength_foldl_beside

/-- The bounds of pieces, those of the tainted ones first. -/
theorem perm_map_bound? (hints : ∀ p ∈ rest, p.isInt = false) :
    (rest.map (Piece.bound? g)).Perm
      ((rest.filterMap (Piece.tainted? g)).map (·.maxLength) ++
        (rest.filterMap Piece.literal?).map fun s => some s.length) := by
  induction rest with
  | nil => exact .nil
  | cons q rest ih =>
    have hrest := ih fun p hp => hints p (List.mem_cons_of_mem _ hp)
    rcases q.literal_or_tainted g (hints q List.mem_cons_self) with ⟨s, rfl⟩ | ⟨u, hu⟩
    · exact (hrest.cons _).trans List.perm_middle.symm
    · have hliteral : q.literal? = none := by
        simpa [Piece.isLiteral] using Piece.isLiteral_of_tainted hu
      rw [List.filterMap_cons_some hu, List.filterMap_cons_none hliteral, List.map_cons,
        List.map_cons, Piece.bound?_of_tainted hu]
      exact hrest.cons _

/-! ### Values -/

theorem values_foldl_concat {gs : List TextGuarantee} (hgs : gs ≠ []) :
    (gs.foldl concat t).values = none := by
  obtain ⟨u, gs, rfl⟩ := List.exists_cons_of_ne_nil hgs
  rw [List.foldl_cons]
  have hvalues : (t.concat u).values = none := rfl
  generalize t.concat u = v at hvalues
  induction gs generalizing v with
  | nil => exact hvalues
  | cons u gs ih => exact ih (by simp) (v.concat u) rfl

theorem values_foldl_append (texts : List String) (g : TextGuarantee) :
    (texts.foldl append g).values =
      g.values.map fun known => known.map fun v => v ++ String.join texts := by
  induction texts generalizing g with
  | nil =>
    cases hg : g.values with
    | none => exact hg
    | some known =>
      rw [List.foldl_nil, hg, Option.map_some]
      simp only [String.join_nil, String.append_empty, TextSet.map_id]
  | cons s texts ih =>
    rw [List.foldl_cons, ih, String.join_cons]
    show (g.values.map _).map _ = _
    simp only [Option.map_map, Function.comp_def, TextSet.map_map, String.append_assoc]

theorem values_foldl_prepend (texts : List String) (g : TextGuarantee) :
    (texts.reverse.foldl prepend g).values =
      g.values.map fun known => known.map fun v => String.join texts ++ v := by
  induction texts with
  | nil =>
    cases hg : g.values with
    | none => exact hg
    | some known =>
      rw [List.reverse_nil, List.foldl_nil, hg, Option.map_some]
      simp only [String.join_nil, String.empty_append, TextSet.map_id]
  | cons s texts ih =>
    rw [List.reverse_cons, List.foldl_append, List.foldl_cons, List.foldl_nil, String.join_cons]
    show ((texts.reverse.foldl prepend g).values.map _) = _
    rw [ih]
    simp only [Option.map_map, Function.comp_def, TextSet.map_map, String.append_assoc]

theorem map_written_of_literals (v : String) (h : rest.filter (!·.isLiteral) = []) :
    rest.map (Piece.written v) = rest.filterMap Piece.literal? := by
  rw [List.filter_eq_nil_iff] at h
  induction rest with
  | nil => rfl
  | cons q rest ih =>
    have hrest := ih fun p hp => h p (List.mem_cons_of_mem _ hp)
    cases q with
    | literal s => exact congrArg (s :: ·) hrest
    | _ => exact absurd rfl (h _ List.mem_cons_self)

/-! ### The whole concatenation -/

theorem passThrough_of_split (hjoined : ps.any Piece.isJoined = true)
    (hints : (ps.filterMap Piece.int?).length < 2)
    (hsplit : inOrder ps = texts.map Piece.literal ++ p :: rest) (ht : p.tainted? g = some t) :
    g.passThrough none ps =
      (rest.filterMap Piece.literal?).foldl append
        (texts.reverse.foldl prepend ((rest.filterMap (Piece.tainted? g)).foldl concat t)) := by
  unfold passThrough
  rw [cut_of_few hints, if_pos hjoined, hsplit, Joint.foldl_add_of_split ht]
  rfl

section Split

variable (hsplit : ps = texts.map Piece.literal ++ p :: rest) (ht : p.tainted? g = some t)

include hsplit ht

theorem filterMap_tainted?_of_split :
    ps.filterMap (Piece.tainted? g) = t :: rest.filterMap (Piece.tainted? g) := by
  have htexts : (texts.map Piece.literal).filterMap (Piece.tainted? g) = [] :=
    List.filterMap_eq_nil_iff.mpr fun q hq => by
      obtain ⟨s, -, rfl⟩ := List.mem_map.mp hq
      rfl
  rw [hsplit, List.filterMap_append, htexts, List.nil_append, List.filterMap_cons_some ht]

theorem filter_not_isLiteral_of_split :
    ps.filter (!·.isLiteral) = p :: rest.filter (!·.isLiteral) := by
  have htexts : (texts.map Piece.literal).filter (!·.isLiteral) = [] :=
    List.filter_eq_nil_iff.mpr fun q hq => by
      obtain ⟨s, -, rfl⟩ := List.mem_map.mp hq
      exact Bool.false_ne_true
  rw [hsplit, List.filter_append, htexts, List.nil_append,
    List.filter_cons_of_pos (by rw [Piece.isLiteral_of_tainted ht]; rfl)]

/-- Only the flowing text is tainted if it is the first such piece and nothing is joined to it. -/
theorem filter_eq_current_iff_of_split (hints : ∀ p ∈ ps, p.isInt = false)
    (hcurrent : .current ∈ ps) :
    ps.filter (!·.isLiteral) = [.current] ↔ rest.filterMap (Piece.tainted? g) = [] := by
  rw [filter_not_isLiteral_of_split hsplit ht]
  have hrest : rest.filter (!·.isLiteral) = [] ↔ rest.filterMap (Piece.tainted? g) = [] := by
    rw [List.filter_eq_nil_iff, List.filterMap_eq_nil_iff]
    refine forall₂_congr fun q hq => ?_
    have hint : q.isInt = false := by
      refine hints q ?_
      rw [hsplit]
      exact List.mem_append_right _ (List.mem_cons_of_mem p hq)
    rw [← q.isLiteral_iff_not_tainted g hint, Bool.not_eq_true', Bool.not_eq_false]
  constructor
  · intro h
    exact hrest.mp (List.cons.inj h).2
  · intro h
    have hmem : Piece.current ∈ ps.filter (!·.isLiteral) := List.mem_filter.mpr ⟨hcurrent, rfl⟩
    rw [filter_not_isLiteral_of_split hsplit ht, hrest.mpr h] at hmem
    rw [hrest.mpr h, List.mem_singleton.mp hmem]

end Split

section Joined

variable {pieces : List Piece} (hjoined : pieces.any Piece.isJoined = true)
  (hints : (pieces.filterMap Piece.int?).length < 2)
  (hsplit : inOrder pieces = texts.map Piece.literal ++ p :: rest) (ht : p.tainted? g = some t)

include hjoined hints hsplit ht

theorem charset_of_split :
    (g.passThrough none pieces).charset =
      ((rest.filterMap (Piece.tainted? g)).map (·.charset)).foldl Charset.concat t.charset := by
  rw [passThrough_of_split hjoined hints hsplit ht, charset_around, charset_foldl_concat]

/-- The lengths are added in another order than the pieces are written. -/
theorem exists_bounds_of_split :
    ∃ bounds, (g.passThrough none pieces).maxLength = bounds.foldl added t.maxLength ∧
      ((inOrder pieces).map (Piece.bound? g)).Perm (t.maxLength :: bounds) := by
  have hnumberless (q : Piece) (hq : q ∈ rest) : q.isInt = false := by
    have hmem : q ∈ inOrder pieces := by
      rw [hsplit]
      exact List.mem_append_right _ (List.mem_cons_of_mem p hq)
    exact not_isInt_of_mem_inOrder hmem
  refine ⟨(rest.filterMap (Piece.tainted? g)).map (·.maxLength) ++
    (texts.reverse.map (fun s => some s.length) ++
      (rest.filterMap Piece.literal?).map fun s => some s.length), ?_, ?_⟩
  · rw [passThrough_of_split hjoined hints hsplit ht, maxLength_around, maxLength_foldl_concat,
      ← List.foldl_append]
  · rw [hsplit, List.map_append, List.map_map, List.map_cons, Piece.bound?_of_tainted ht]
    have htexts : (texts.map (Piece.bound? g ∘ Piece.literal)).Perm
        (texts.reverse.map fun s => some s.length) := texts.reverse_perm.symm.map _
    have hrest := htexts.append (perm_map_bound? (g := g) hnumberless)
    exact List.perm_middle.trans (.cons _ (hrest.trans (List.perm_append_comm_assoc _ _ _)))

/-- If only the flowing text is tainted, each of its values is kept with the literals around it. -/
theorem values_of_split (honly : (inOrder pieces).filter (!·.isLiteral) = [.current]) :
    (g.passThrough none pieces).values =
      g.values.map fun known => known.map fun v =>
        String.join ((inOrder pieces).map (Piece.written v)) := by
  have hnone := (filter_eq_current_iff_of_split hsplit ht (fun _ => not_isInt_of_mem_inOrder)
    (current_mem_inOrder pieces)).mp honly
  rw [filter_not_isLiteral_of_split hsplit ht] at honly
  obtain ⟨rfl, hrest⟩ := List.cons.inj honly
  obtain rfl := Option.some.inj ht
  have hwritten (v : String) : String.join ((inOrder pieces).map (Piece.written v)) =
      String.join texts ++ v ++ String.join (rest.filterMap Piece.literal?) := by
    rw [hsplit, List.map_append, List.map_map, List.map_cons, String.join_append, String.join_cons,
      map_written_of_literals v hrest, String.append_assoc]
    congr 2
    exact List.map_id texts
  rw [passThrough_of_split hjoined hints hsplit rfl, hnone, List.foldl_nil, values_foldl_append,
    values_foldl_prepend]
  simp only [Option.map_map, Function.comp_def, TextSet.map_map, hwritten]

end Joined

end TextGuarantee

/-- Without a cut, a concatenation is what its pieces are in written order, with the flowing text in
front if it has no place of its own. The charset joins those of the tainted pieces from left to
right. The bound on the length is the sum of all bounds and of the lengths of the literals, and
there is none exactly if a tainted piece has none or the sum does not fit. If the flowing text is
the only tainted piece, the values are its values with the literals around them; otherwise none are
known. -/
theorem TextGuarantee.passThrough_in_written_order (g : TextGuarantee) (pieces : List Piece)
    (hjoined : pieces.any Piece.isJoined = true)
    (hints : (pieces.filterMap Piece.int?).length < 2) :
    (∃ first rest, (inOrder pieces).filterMap (Piece.tainted? g) = first :: rest ∧
        (g.passThrough none pieces).charset =
          (rest.map (·.charset)).foldl Charset.concat first.charset) ∧
      (∀ n, (g.passThrough none pieces).maxLength = some n ↔
        (∀ p ∈ inOrder pieces, p.bound? g ≠ none) ∧
          total ((inOrder pieces).map (Piece.bound? g)) = n ∧ n ≤ Size.largest) ∧
      ((g.passThrough none pieces).maxLength = none ↔
        (∃ p ∈ inOrder pieces, p.isLiteral = false ∧ p.bound? g = none) ∨
          Size.largest < total ((inOrder pieces).map (Piece.bound? g))) ∧
      ((inOrder pieces).filter (!·.isLiteral) = [.current] →
        (g.passThrough none pieces).values =
          g.values.map fun known => known.map fun v =>
            String.join ((inOrder pieces).map (Piece.written v))) ∧
      ((inOrder pieces).filter (!·.isLiteral) ≠ [.current] →
        (g.passThrough none pieces).values = none) := by
  obtain ⟨texts, p, rest, t, hsplit, ht⟩ :=
    exists_first_tainted g (current_mem_inOrder pieces) fun _ => not_isInt_of_mem_inOrder
  obtain ⟨bounds, hlength, hperm⟩ := exists_bounds_of_split hjoined hints hsplit ht
  have hbounds : bounds ≠ [] := by
    rintro rfl
    have hcount := hperm.length_eq
    have htwo := two_le_length_inOrder hjoined
    rw [List.length_map, List.length_singleton] at hcount
    omega
  have hsome (n : Nat) : (g.passThrough none pieces).maxLength = some n ↔
      (∀ p ∈ inOrder pieces, p.bound? g ≠ none) ∧
        total ((inOrder pieces).map (Piece.bound? g)) = n ∧ n ≤ Size.largest := by
    rw [hlength, foldl_added_eq_some_iff hbounds, total_perm hperm.symm]
    simp only [← hperm.mem_iff, List.forall_mem_map]
  refine ⟨⟨t, _, filterMap_tainted?_of_split hsplit ht, charset_of_split hjoined hints hsplit ht⟩,
    hsome, ?_, values_of_split hjoined hints hsplit ht, ?_⟩
  · constructor
    · intro hnone
      by_contra h
      push Not at h
      obtain ⟨hknown, hfits⟩ := h
      have hall (q : Piece) (hq : q ∈ inOrder pieces) : q.bound? g ≠ none := by
        cases q with
        | literal s => exact Option.some_ne_none _
        | _ => exact hknown _ hq rfl
      rw [(hsome _).mpr ⟨hall, rfl, hfits⟩] at hnone
      contradiction
    · intro h
      refine Option.eq_none_iff_forall_ne_some.mpr fun n hn => ?_
      obtain ⟨hknown, rfl, hfits⟩ := (hsome n).mp hn
      rcases h with ⟨q, hq, -, hq'⟩ | hover
      · exact hknown q hq hq'
      · exact absurd hfits (Nat.not_le.mpr hover)
  · intro hother
    rw [passThrough_of_split hjoined hints hsplit ht, values_foldl_append, values_foldl_prepend,
      values_foldl_concat]
    · rfl
    · intro hnone
      exact hother ((filter_eq_current_iff_of_split hsplit ht
        (fun _ => not_isInt_of_mem_inOrder) (current_mem_inOrder pieces)).mpr hnone)

/-- A state between two tags keeps its values. With a number joined to it that is not known, only
the charset and the bound on the length are kept. -/
theorem TextGuarantee.passThrough_boldState :
    ((oneOf (.ofList ["off", "on"])).passThrough none
        [.literal "<b>", .current, .int 3, .literal "</b>"]).values =
      some (.ofList ["<b>off</b>", "<b>on</b>"]) ∧
    ((oneOf (.ofList ["off", "on"])).passThrough none
        [.literal "-", .value (.integer (.range 0 99)), .literal ";"]).maxLength = some 7 ∧
    ((oneOf (.ofList ["off", "on"])).passThrough none
        [.literal "-", .value (.integer (.range 0 99)), .literal ";"]).values = none := by
  obtain ⟨-, -, -, hvalues, -⟩ := passThrough_in_written_order (oneOf (.ofList ["off", "on"]))
    [.literal "<b>", .current, .int 3, .literal "</b>"] rfl (by decide)
  obtain ⟨-, hlength, -, -, hnone⟩ := passThrough_in_written_order (oneOf (.ofList ["off", "on"]))
    [.literal "-", .value (.integer (.range 0 99)), .literal ";"] rfl (by decide)
  have hknown : ∀ p ∈ inOrder [.literal "-", .value (.integer (.range 0 99)), .literal ";"],
      p.bound? (oneOf (.ofList ["off", "on"])) ≠ none :=
    List.forall_mem_map (f := Piece.bound? _) (P := (· ≠ none)).mp (by decide)
  refine ⟨(hvalues rfl).trans (by decide), (hlength 7).mpr ⟨hknown, by decide, by decide⟩, ?_⟩
  exact hnone fun h => absurd (congrArg List.length h) (by decide)

end FlowSafety
