import FlowSafety.Proofs.Pattern.Behind

/-!
# Patterns in a group between anchors

A check of a whole text searches for the pattern in a group between `^` and `$`. Read in this group
the pattern is what it is alone: turn by turn the reader inside of the group does what the reader of
the pattern does, with one more group open around. Only a comment at the end of the pattern takes
the closing parenthesis, and then the group is never closed.

* `Reader.Inside` — a reader of the pattern, and one with the closing characters behind
* `Reader.Inside.step` — a turn keeps them together
* `Reader.under`, `Reader.step_under` — what groups are open around bears on no part of the pattern
* `parse_anchored_eq`, `parse_anchored` — what the pattern in the group is read as
-/

namespace FlowSafety.Pattern

variable {cs rest : List Char} {s s' t : Cursor}

/-! ## Names and flags -/

theorem groupName_follows : Follows (fun a b => b = (a.1, a.2 ++ closing)) (groupName? cs)
    (groupName? (cs ++ closing)) := by
  unfold groupName?
  dsimp only
  cases hdrop : cs.dropWhile (· ≠ '>') with
  | nil =>
    split
    · contradiction
    · exact .of_none
  | cons c more =>
    obtain ⟨htake, hdrop'⟩ := takeWhile_closing hdrop
    rw [htake, hdrop']
    cases cs.takeWhile (· ≠ '>') with
    | nil => exact .of_none
    | cons d ds => exact .ite (fun _ => .of_some rfl) fun _ => .of_none

theorem flagChange_follows {change : FlagChange} {negating dangling : Bool} :
    Follows (fun a b => b = (a.1, a.2.1, a.2.2 ++ closing))
      (flagChange? change negating dangling cs)
      (flagChange? change negating dangling (cs ++ closing)) := by
  induction cs generalizing change negating dangling with
  | nil => exact .of_none
  | cons c cs ih =>
    rw [List.cons_append, flagChange?, flagChange?]
    refine .ite (fun _ => .ite (fun _ => .of_none) fun _ => .of_some rfl) fun _ => ?_
    refine .ite (fun _ => .ite (fun _ => .of_none) fun _ => ih) fun _ => ?_
    refine (Follows.refl _).bind ?_
    rintro flag _ rfl
    exact .ite (fun _ => .of_none) fun _ => .ite (fun _ => ih) fun _ => ih

/-! ## Readers -/

namespace Reader

/-- A reader of a pattern, and one that has the closing characters behind the pattern. -/
structure Inside (r r' : Reader) : Prop where
  cursor : r.cursor.Extends r'.cursor
  parts : r'.parts = r.parts
  groups : r'.groups = r.groups
  captures : r'.captures = r.captures
  names : r'.names = r.names

namespace Inside

variable {r r' q : Reader}

theorem item (h : Inside r r') (ast : Ast) (ht : t.Extends s) :
    Inside (r.item ast t) (r'.item ast s) := by
  refine ⟨ht, ?_, h.groups, h.captures, h.names⟩
  rw [Reader.item, Reader.item, h.parts]

/-- Setting whether blanks count. -/
theorem withBlank (ht : t.Extends s) (blank : Bool) :
    Cursor.Extends { t with ignoreBlank := blank } { s with ignoreBlank := blank } := by
  rcases ht with rfl | ⟨hrest, rfl⟩
  · exact .inl rfl
  · exact .inr ⟨hrest, rfl⟩

theorem enter (h : Inside r r') (kind : GroupKind) (ht : t.Extends s) :
    Inside (r.enter kind t) (r'.enter kind s) := by
  refine ⟨?_, rfl, ?_, h.captures, h.names⟩
  · unfold Reader.enter
    dsimp only
    rw [h.cursor.ignoreBlank_eq]
    exact withBlank ht _
  · unfold Reader.enter
    dsimp only
    rw [h.parts, h.groups, h.cursor.ignoreBlank_eq]

theorem enterCapture (h : Inside r r') (ht : t.Extends s) :
    Inside (r.enterCapture t) (r'.enterCapture s) := by
  obtain ⟨hcursor, hparts, hgroups, -, hnames⟩ := h.enter (.capture (r.captures + 1)) ht
  unfold Reader.enterCapture
  rw [h.captures]
  exact ⟨hcursor, hparts, hgroups, rfl, hnames⟩

theorem enterNamed (h : Inside r r') (ht : t.Extends s) :
    Follows Inside (r.enterNamed? t) (r'.enterNamed? s) := by
  unfold Reader.enterNamed?
  cases hrest : t.rest with
  | nil => exact .of_none
  | cons c cs =>
    rw [ht.rest_of_cons hrest, ← List.cons_append, h.names]
    refine groupName_follows.bind ?_
    rintro ⟨name, rest⟩ _ rfl
    obtain ⟨hcursor, hparts, hgroups, hcaptures, -⟩ := h.enterCapture (ht.behind rest)
    exact .ite (fun _ => .of_none) fun _ => .of_some ⟨hcursor, hparts, hgroups, hcaptures, rfl⟩

theorem openFlags (h : Inside r r') (ht : t.Extends s) :
    Follows Inside (r.openFlags? t) (r'.openFlags? s) := by
  unfold openFlags?
  cases hrest : t.rest with
  | nil => exact .of_none
  | cons c cs =>
    rw [ht.rest_of_cons hrest, ← List.cons_append]
    refine flagChange_follows.bind ?_
    rintro ⟨change, stop, rest⟩ _ rfl
    have hbehind := ht.behind rest
    refine .ite (fun _ => .of_some (h.enter _ hbehind)) fun _ => ?_
    refine .ite (fun _ => .of_none) fun _ => .of_some ?_
    rw [ht.ignoreBlank_eq]
    exact h.item _ (withBlank hbehind _)

theorem openMarked_angle (hrest : s.rest = '<' :: rest) :
    r.openMarked? s =
      if rest.head? = some '=' ∨ rest.head? = some '!' then none
      else r.enterNamed? { s with rest := rest } := by
  rw [openMarked?, hrest]
  rfl

theorem openMarked_other (hnamed : ∀ rest, s.rest ≠ 'P' :: '<' :: rest)
    (hangle : ∀ rest, s.rest ≠ '<' :: rest) : r.openMarked? s = r.openFlags? s := by
  unfold openMarked?
  split
  · rename_i rest hrest
    exact absurd hrest (hnamed rest)
  · rename_i rest hrest
    exact absurd hrest (hangle rest)
  · rfl

theorem openMarked (h : Inside r r') (ht : t.Extends s) :
    Follows Inside (r.openMarked? t) (r'.openMarked? s) := by
  by_cases hnamed : ∃ rest, t.rest = 'P' :: '<' :: rest
  · obtain ⟨rest, hrest⟩ := hnamed
    rw [openMarked?, openMarked?, hrest, ht.rest_of_cons hrest]
    exact h.enterNamed (ht.behind rest)
  · have hnamed : ∀ rest, t.rest ≠ 'P' :: '<' :: rest := fun rest h => hnamed ⟨rest, h⟩
    rcases ht.starts_or (show '<' ≠ ')' by decide) with ⟨rest, hrest⟩ | ⟨hangle, hangle'⟩
    · rw [openMarked_angle hrest, openMarked_angle (ht.rest_of_cons hrest)]
      cases rest with
      | nil => exact .of_none
      | cons c cs =>
        rw [List.cons_append, List.head?_cons, ← List.cons_append]
        exact .ite (fun _ => .of_none) fun _ => h.enterNamed (ht.behind (c :: cs))
    · have hnamed' : ∀ rest, s.rest ≠ 'P' :: '<' :: rest := by
        rcases ht with rfl | ⟨-, rfl⟩
        · dsimp only
          match hrest : t.rest with
          | [] => simp [closing]
          | [c] => simp [closing]
          | c :: d :: more =>
            rintro rest heq
            cases heq
            exact hnamed more hrest
        · exact hnamed
      rw [openMarked_other hnamed hangle, openMarked_other hnamed' hangle']
      exact h.openFlags ht

theorem openGroup_capture (hmark : ∀ cs, r.cursor.advanceSkip.rest ≠ '?' :: cs) :
    r.openGroup? = some (r.enterCapture r.cursor.advanceSkip) := by
  unfold openGroup?
  dsimp only
  split
  · rename_i cs heq
    exact absurd heq (hmark cs)
  · rfl

theorem openGroup {c : Char} (h : Inside r r') (hrest : r.cursor.rest = c :: cs) :
    Follows Inside r.openGroup? r'.openGroup? := by
  have hskip := h.cursor.advanceSkip hrest
  rcases hskip.starts_or (show '?' ≠ ')' by decide) with ⟨cs, hnext⟩ | ⟨hmark, hmark'⟩
  · unfold openGroup?
    dsimp only
    rw [hnext, hskip.rest_of_cons hnext]
    exact h.openMarked (hskip.advance hnext)
  · rw [openGroup_capture hmark, openGroup_capture hmark']
    exact .of_some (h.enterCapture hskip)

theorem closeGroup {c : Char} (h : Inside r r') (hrest : r.cursor.rest = c :: cs) :
    Follows Inside r.closeGroup? r'.closeGroup? := by
  unfold closeGroup?
  rw [h.groups, h.parts]
  cases r.groups with
  | nil => exact .of_none
  | cons g groups =>
    exact .of_some ⟨withBlank (h.cursor.advance hrest) _, rfl, rfl, h.captures, h.names⟩

theorem repetition {min : Nat} {max : Option Nat} (h : Inside r r') (ht : t.Extends s) :
    Follows Inside (r.repeat? min max t) (r'.repeat? min max s) := by
  obtain ⟨hgreedy, hbehind⟩ := laziness_alike ht
  unfold repeat?
  dsimp only
  rw [h.parts, hgreedy]
  cases r.parts.items with
  | nil => exact .of_none
  | cons sub items =>
    exact .ite (fun _ => .of_some ⟨hbehind, rfl, h.groups, h.captures, h.names⟩) fun _ => .of_none

/-- A turn keeps the readers together. -/
theorem step (h : Inside r r') : Follows Inside r.step? r'.step? := by
  cases hrest : r.cursor.rest with
  | nil =>
    rw [step?, hrest]
    exact .of_none
  | cons c cs =>
    have hnext := h.cursor.advance hrest
    unfold step?
    dsimp only
    rw [hrest, h.cursor.rest_of_cons hrest]
    dsimp only
    split
    case h_1 => exact h.openGroup hrest
    case h_2 => exact h.closeGroup hrest
    case h_3 => exact .of_some ⟨hnext, by rw [h.parts], h.groups, h.captures, h.names⟩
    case h_4 =>
      refine (stable_class h.cursor hrest).map ?_
      rintro ⟨_, t⟩ ⟨ast, t'⟩ ⟨rfl, ht⟩
      exact h.item ast ht
    case h_5 | h_6 | h_7 => exact h.repetition hnext
    case h_8 =>
      refine (stable_bounds h.cursor hrest).bind ?_
      rintro ⟨_, t⟩ ⟨⟨min, max⟩, t'⟩ ⟨rfl, ht⟩
      exact h.repetition ht
    case h_9 =>
      refine (stable_escape hnext).map ?_
      rintro ⟨_, t⟩ ⟨p, t'⟩ ⟨rfl, ht⟩
      exact h.item p.toAst ht
    all_goals exact .of_some (h.item _ hnext)

end Inside

/-! ## Groups around -/

/-- The same reader with more groups open around all that it reads. -/
def under (around : List OpenGroup) (r : Reader) : Reader :=
  { r with groups := r.groups ++ around }

variable {around : List OpenGroup} {r r' q : Reader}

theorem enterNamed_under : (r.under around).enterNamed? s = (r.enterNamed? s).map (under around) := by
  unfold enterNamed?
  cases groupName? s.rest with
  | none => rfl
  | some found =>
    have hnames : (r.under around).names = r.names := rfl
    dsimp only [Option.bind_some]
    rw [hnames]
    split <;> rfl

theorem openFlags_under : (r.under around).openFlags? s = (r.openFlags? s).map (under around) := by
  unfold openFlags?
  cases flagChange? {} false false s.rest with
  | none => rfl
  | some found =>
    dsimp only [Option.bind_some]
    split
    · rfl
    · split <;> rfl

theorem openMarked_under :
    (r.under around).openMarked? s = (r.openMarked? s).map (under around) := by
  unfold openMarked?
  split
  · exact enterNamed_under
  · split
    · rfl
    · exact enterNamed_under
  · exact openFlags_under

theorem openGroup_under : (r.under around).openGroup? = r.openGroup?.map (under around) := by
  have hcursor : (r.under around).cursor = r.cursor := rfl
  unfold openGroup?
  dsimp only
  rw [hcursor]
  split
  · exact openMarked_under
  · rfl

theorem repeat_under {min : Nat} {max : Option Nat} :
    (r.under around).repeat? min max s = (r.repeat? min max s).map (under around) := by
  have hparts : (r.under around).parts = r.parts := rfl
  unfold repeat?
  rw [hparts]
  split
  · split <;> rfl
  · rfl

/-- A turn takes no note of the groups around, as it closes none of them. -/
theorem step_under (h : r.step? = some q) : (r.under around).step? = some (q.under around) := by
  have hcursor : (r.under around).cursor = r.cursor := rfl
  unfold step? at h ⊢
  dsimp only at h ⊢
  rw [hcursor]
  split at h
  · contradiction
  · split at h
    case h_1 => rw [openGroup_under, h, Option.map_some]
    case h_2 =>
      unfold closeGroup? at h ⊢
      cases hgroups : r.groups with
      | nil =>
        rw [hgroups] at h
        contradiction
      | cons g groups =>
        rw [hgroups] at h
        cases h
        rw [under, hgroups]
        rfl
    case h_4 =>
      obtain ⟨found, hfound, rfl⟩ := Option.map_eq_some_iff.mp h
      rw [hfound]
      rfl
    case h_5 | h_6 | h_7 => rw [repeat_under, h, Option.map_some]
    case h_8 =>
      obtain ⟨found, hfound, h⟩ := Option.bind_eq_some_iff.mp h
      rw [hfound, Option.bind_some, repeat_under, h, Option.map_some]
    case h_9 =>
      obtain ⟨found, hfound, rfl⟩ := Option.map_eq_some_iff.mp h
      rw [hfound]
      rfl
    all_goals
      cases h
      rfl

/-! ## Runs -/

theorem run_of_cons {n : Nat} {r : Reader} {c : Char} (hrest : r.cursor.skip.rest = c :: cs) :
    r.run? (n + 1) = Reader.step? { r with cursor := r.cursor.skip } >>= run? n := by
  rw [run?, hrest]
  rfl

theorem run_of_nil {n : Nat} {r : Reader} (hrest : r.cursor.skip.rest = []) :
    r.run? (n + 1) = if r.groups.isEmpty then some r.parts.close else none := by
  rw [run?, hrest]
  rfl

/-- Where the pattern is read, its parts are complete in the reader that has the closing characters
behind it, whatever groups are open around. Nothing else is left to that reader, and the closing
characters only if no comment has taken them. -/
theorem Inside.run {n : Nat} {ast : Ast} (h : Inside r r') (hread : r.run? n = some ast) :
    ∃ k < n, ∃ q : Reader, q.groups = [] ∧ q.parts.close = ast ∧
      (q.cursor.skip.rest = closing ∨ q.cursor.skip.rest = []) ∧
      ∀ around m, (r'.under around).run? (k + m) = (q.under around).run? m := by
  -- the induction is on the turns that read the pattern; both readers take one at a time
  induction n generalizing r r' with
  | zero => contradiction
  | succ n ih =>
    have hskip : Inside { r with cursor := r.cursor.skip } { r' with cursor := r'.cursor.skip } :=
      ⟨h.cursor.skip, h.parts, h.groups, h.captures, h.names⟩
    cases hrest : r.cursor.skip.rest with
    | nil =>
      rw [run_of_nil hrest] at hread
      split at hread
      · rename_i hempty
        cases hread
        refine ⟨0, Nat.succ_pos n, r', ?_, congrArg Parts.close h.parts,
          hskip.cursor.rest_of_nil hrest, fun around m => by rw [Nat.zero_add]⟩
        rw [h.groups, List.isEmpty_iff.mp hempty]
      · contradiction
    | cons c cs =>
      rw [run_of_cons hrest] at hread
      obtain ⟨q, hstep, hread⟩ := Option.bind_eq_some_iff.mp hread
      obtain ⟨q', hstep', hq⟩ := hskip.step q hstep
      obtain ⟨k, hk, last, hgroups, hparts, hbehind, hrun⟩ := ih hq hread
      refine ⟨k + 1, Nat.succ_lt_succ hk, last, hgroups, hparts, hbehind, fun around m => ?_⟩
      have hturn : Reader.step?
          { r'.under around with cursor := (r'.under around).cursor.skip } =
            some (q'.under around) :=
        step_under hstep'
      rw [Nat.add_right_comm, run_of_cons (r := r'.under around)
        (hskip.cursor.rest_of_cons hrest), hturn]
      exact hrun around m

end Reader

/-! ## Patterns -/

/-- The pattern in a group between anchors. -/
def Ast.anchored (ast : Ast) : Ast :=
  .concat [.assertion .startLine, .group (.plain {}) ast, .assertion .endLine]

theorem Ast.depth_anchored (ast : Ast) : ast.anchored.depth = ast.depth + 2 := by
  simp [anchored, depth, depthOfItems]

/-- The group that is open around the pattern. -/
def anchorGroup : OpenGroup :=
  { kind := .plain {}, outer := { items := [.assertion .startLine] }, ignoreBlank := false }

/-- A comment at the end of the pattern takes what is behind it: a closing parenthesis, which
belongs to no group, is read there. -/
def endsInComment (pattern : String) : Bool := (parse? (pattern ++ ")$")).isSome

namespace Reader

variable {q : Reader} {m : Nat}

/-- The reader behind the pattern closes the group and takes the `$`. -/
theorem run_closing (hrest : q.cursor.skip.rest = closing) (hgroups : q.groups = []) :
    (q.under [anchorGroup]).run? (m + 3) = some q.parts.close.anchored := by
  have hclose : Reader.step?
      { q.under [anchorGroup] with cursor := (q.under [anchorGroup]).cursor.skip } =
      some
        { q with
          groups := []
          parts := anchorGroup.outer.push (.group (.plain {}) q.parts.close)
          cursor := ⟨['$'], false⟩ } := by
    have hcursor : (q.under [anchorGroup]).cursor = q.cursor := rfl
    unfold Reader.step?
    dsimp only
    rw [hcursor, hrest]
    unfold closing Reader.closeGroup?
    dsimp only
    rw [under, hgroups, Cursor.advance, hrest]
    rfl
  rw [run_of_cons (r := q.under [anchorGroup]) hrest, hclose]
  rfl

/-- Where a comment has taken the closing parenthesis the group stays open. -/
theorem run_open (hrest : q.cursor.skip.rest = []) (hgroups : q.groups = []) :
    (q.under [anchorGroup]).run? m = none := by
  cases m with
  | zero => rfl
  | succ m =>
    rw [run_of_nil (r := q.under [anchorGroup]) hrest, under, hgroups]
    rfl

/-- Without a group the closing parenthesis is not read. -/
theorem run_alone_closing (hrest : q.cursor.skip.rest = closing) (hgroups : q.groups = []) :
    (q.under []).run? m = none := by
  cases m with
  | zero => rfl
  | succ m =>
    have hclose : Reader.step? { q.under [] with cursor := (q.under []).cursor.skip } = none := by
      have hcursor : (q.under []).cursor = q.cursor := rfl
      unfold Reader.step?
      dsimp only
      rw [hcursor, hrest]
      unfold closing Reader.closeGroup?
      dsimp only
      rw [under, hgroups]
      rfl
    rw [run_of_cons (r := q.under []) hrest, hclose]
    rfl

theorem run_alone_nil (hrest : q.cursor.skip.rest = []) (hgroups : q.groups = []) :
    (q.under []).run? (m + 1) = some q.parts.close := by
  rw [run_of_nil (r := q.under []) hrest, under, hgroups]
  rfl

end Reader

/-- A pattern in a group between anchors is read as it is read alone, unless a comment at its end
takes the closing parenthesis or the group makes it too deep. -/
theorem parse_anchored_eq {pattern : String} {ast : Ast} (h : parse? pattern = some ast) :
    parse? ("^(?:" ++ pattern ++ ")$") =
      if endsInComment pattern = false ∧ ast.depth + 2 ≤ maxDepth then some ast.anchored
      else none := by
  have hbehind : (pattern ++ ")$").toList = pattern.toList ++ closing := by
    rw [String.toList_append]
    rfl
  have hlist : ("^(?:" ++ pattern ++ ")$").toList =
      '^' :: '(' :: '?' :: ':' :: (pattern.toList ++ closing) := by
    rw [String.toList_append, String.toList_append]
    rfl
  obtain ⟨read, hrun, h⟩ := Option.bind_eq_some_iff.mp h
  rw [Option.ite_none_right_eq_some] at h
  obtain ⟨hdepth, h⟩ := h
  cases h
  have hinside : Reader.Inside { cursor := ⟨pattern.toList, false⟩ }
      { cursor := ⟨pattern.toList ++ closing, false⟩ } :=
    ⟨.inl rfl, rfl, rfl, rfl, rfl⟩
  obtain ⟨k, hk, q, hgroups, hparts, hend, hturns⟩ := hinside.run hrun
  -- the turns that are left behind the pattern, alone and in the group
  obtain ⟨m, hm⟩ := Nat.exists_eq_add_of_le (Nat.le_of_lt_succ hk)
  have halone : parse? (pattern ++ ")$") =
      ((q.under []).run? (m + 3)).bind fun ast =>
        if ast.depth ≤ maxDepth then some ast else none := by
    unfold parse?
    dsimp only
    rw [hbehind, ← hturns [] (m + 3), List.length_append, hm]
    rfl
  have hopen : ∀ n, Reader.run? (n + 2)
      { cursor := ⟨'^' :: '(' :: '?' :: ':' :: (pattern.toList ++ closing), false⟩ } =
        Reader.run? n { cursor := ⟨pattern.toList ++ closing, false⟩, groups := [anchorGroup] } :=
    fun n => rfl
  have hgroup : parse? ("^(?:" ++ pattern ++ ")$") =
      ((q.under [anchorGroup]).run? (m + 5)).bind fun ast =>
        if ast.depth ≤ maxDepth then some ast else none := by
    unfold parse?
    dsimp only
    rw [hlist, ← hturns [anchorGroup] (m + 5), List.length_cons, List.length_cons, hopen,
      List.length_cons, List.length_cons, List.length_append, hm]
    rfl
  rw [hgroup, endsInComment, halone]
  rcases hend with hclosing | hnil
  · rw [Reader.run_alone_closing hclosing hgroups, Reader.run_closing hclosing hgroups, hparts,
      Option.bind_some, Ast.depth_anchored]
    simp
  · rw [Reader.run_alone_nil hnil hgroups, Reader.run_open hnil hgroups, hparts,
      Option.bind_some, if_pos hdepth]
    simp

/-- Where a pattern is read in the group, it is read as it is alone. -/
theorem parse_anchored {pattern : String} {ast ast' : Ast} (h : parse? pattern = some ast)
    (h' : parse? ("^(?:" ++ pattern ++ ")$") = some ast') : ast' = ast.anchored := by
  rw [parse_anchored_eq h, Option.ite_none_right_eq_some] at h'
  exact (Option.some.inj h'.2).symm

end FlowSafety.Pattern
