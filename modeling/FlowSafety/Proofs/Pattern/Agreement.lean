import FlowSafety.Proofs.Pattern.Anchored
import FlowSafety.Proofs.Walk.Summary

/-!
# Which patterns are well-formed

The pattern of a guard is read three times. Validation reads it as it stands, with the meanings of
Unicode. A check of a whole text against known values reads it in a group between anchors, with the
same meanings. What a check establishes about any other text is read from the pattern with a closing
`\Z` written as `$`, with the meanings of ASCII.

The three do not agree on every pattern. The group is not closed behind a comment, it makes the
pattern deeper, and it takes memory of its own; these are the only patterns that pass validation and
are refused by a check. `\Z` itself passes no validation, and neither does a pattern that leaves the
meanings of Unicode and then takes a part of a character, nor one that is too large to search for.

* `meaning_anchored` — what the pattern between anchors means
* `meaning_of_ascii` — a pattern that means something in ASCII does in Unicode
* `readers_agree` — where the three agree
-/

namespace FlowSafety.Pattern

variable {m : Mode} {f f' : Flags} {ast : Ast} {h : Core} {pattern : String} {full : Bool}

/-! ## Between anchors -/

/-- A pattern by what it matches, between anchors. -/
def Core.anchored (h : Core) : Core := .inRow [.look .start, h, .look .stop]

theorem meaning_anchored :
    meaning? m ast.anchored = (meaning? m ast).map Core.anchored := by
  -- the flags in front of a pattern are not those of lines, and the group changes none
  have hstart : look m.flags .startLine = .start := by cases m <;> rfl
  have hstop : look m.flags .endLine = .stop := by cases m <;> rfl
  have hgroup : m.flags.change {} = m.flags := rfl
  rw [meaning?, meaning?, Ast.anchored, resolve?]
  simp only [resolveAll?, resolve?, Option.bind_some, hstart, hgroup]
  cases resolve? m m.flags ast with
  | none => rfl
  | some r => simp [hstop, Core.anchored]

/-- A text can be searched for a valid pattern between anchors, unless a comment at its end takes
the closing parenthesis, or the group is too deep or too large. -/
theorem isValid_anchored_iff (hread : parse? pattern = some ast)
    (hmeaning : meaning? .unicode ast = some h) (hfits : h.fits = true) :
    isValid (FlowSafety.anchored pattern full) = true ↔
      (full = true →
        endsInComment pattern = false ∧ ast.depth + 2 ≤ maxDepth ∧ h.anchored.fits = true) := by
  cases full with
  | false =>
    have hvalid : isValid pattern = true := isValid_iff.mpr ⟨ast, h, hread, hmeaning, hfits⟩
    exact ⟨fun _ hfull => by contradiction, fun _ => hvalid⟩
  | true =>
    have hgroup := parse_anchored_eq hread
    have hanchored : meaning? .unicode ast.anchored = some h.anchored := by
      rw [meaning_anchored, hmeaning, Option.map_some]
    show isValid ("^(?:" ++ pattern ++ ")$") = true ↔ _
    rw [isValid_iff]
    constructor
    · rintro ⟨ast', h', hread', hmeaning', hfits'⟩ -
      rw [hgroup, Option.ite_none_right_eq_some] at hread'
      obtain ⟨⟨hcomment, hdepth⟩, heq⟩ := hread'
      cases heq
      rw [hanchored] at hmeaning'
      cases hmeaning'
      exact ⟨hcomment, hdepth, hfits'⟩
    · intro hgood
      obtain ⟨hcomment, hdepth, hfits'⟩ := hgood rfl
      rw [if_pos ⟨hcomment, hdepth⟩] at hgroup
      exact ⟨ast.anchored, h.anchored, hgroup, hanchored, hfits'⟩

/-! ## Flags -/

/-- The flags with the one that asks for the meanings of Unicode. -/
def Flags.wide (f : Flags) : Flags := { f with unicode := true }

/-- A part of a pattern does not clear a flag. -/
def Ast.keeps (flag : Flag) : Ast → Bool
  | .flags change => !change.cleared.contains flag
  | .group (.plain change) _ => !change.cleared.contains flag
  | _ => true

/-- The pattern never leaves the meanings of Unicode. -/
def Ast.keepsUnicode (ast : Ast) : Bool := ast.every (Ast.keeps .unicode) fun _ => true

theorem FlagChange.apply_on {change : FlagChange} {flag : Flag}
    (h : (!change.cleared.contains flag) = true) : change.apply flag true = true := by
  have hkept : ¬ change.cleared.contains flag = true := by simpa using h
  rw [apply, if_neg hkept, ite_self]

theorem wide_change {change : FlagChange} (h : (!change.cleared.contains Flag.unicode) = true) :
    (f.change change).wide = f.wide.change change := by
  simp only [Flags.wide, Flags.change, FlagChange.apply_on h]

/-! ## Sets of characters -/

/-- Sets of whole characters may stand in every pattern. -/
theorem allows_wide {s : CodeSet} : m.allows f.wide.domain s = true := by
  have hdomain : f.wide.domain = .characters := rfl
  simp [Mode.allows, hdomain]

theorem finish_wide (f : Flags) (m : Mode) (negated : Bool) (s : CodeSet) :
    ∃ t, finish? m f.wide negated s = some t := by
  unfold finish?
  dsimp only
  exact ⟨_, if_pos allows_wide⟩

theorem letterSet_wide (f : Flags) (m : Mode) (kind : LetterClass) (negated : Bool) :
    ∃ t, letterSet? m f.wide kind negated = some t := by
  unfold letterSet?
  dsimp only
  exact ⟨_, if_pos allows_wide⟩

/-- A property that is known is known in both modes. -/
theorem propertySet_wide (n : Mode) {query : PropertyQuery} {negated : Bool} {s : CodeSet}
    (h : propertySet? m f query negated = some s) :
    ∃ t, propertySet? n f.wide query negated = some t := by
  rw [propertySet?, Option.ite_none_right_eq_some] at h
  obtain ⟨r, hr, -⟩ := Option.bind_eq_some_iff.mp h.2
  obtain ⟨t, ht⟩ := finish_wide f n (negated != r.2) r.1
  have hchars : f.wide.unicode = true := rfl
  exact ⟨t, by rw [propertySet?, if_pos hchars, hr, Option.bind_some, ht]⟩

mutual

/-- A class that holds something in ASCII does in Unicode. -/
theorem Denotes.wide {set : ClassSet} {s : CodeSet} (h : Denotes m f set s) (n : Mode) :
    ∃ t, Denotes n f.wide set t := by
  cases h with
  | empty => exact ⟨_, .empty⟩
  | literal _ => exact ⟨_, .literal rfl⟩
  | range _ _ => exact ⟨_, .range rfl rfl⟩
  | named _ =>
    obtain ⟨t, ht⟩ := finish_wide f n _ _
    exact ⟨_, .named ht⟩
  | property hs =>
    obtain ⟨t, ht⟩ := propertySet_wide n hs
    exact ⟨_, .property ht⟩
  | letter _ =>
    obtain ⟨t, ht⟩ := letterSet_wide f n _ _
    exact ⟨_, .letter ht⟩
  | bracketed hs _ =>
    obtain ⟨t, ht⟩ := hs.wide n
    obtain ⟨u, hu⟩ := finish_wide f n _ t
    exact ⟨_, .bracketed ht hu⟩
  | union hrs =>
    obtain ⟨ts, hts⟩ := hrs.wide n
    exact ⟨_, .union hts⟩
  | binary hs ht =>
    obtain ⟨s', hs'⟩ := hs.wide n
    obtain ⟨t', ht'⟩ := ht.wide n
    exact ⟨_, .binary hs' ht'⟩

theorem DenoteAll.wide {items : List ClassSet} {rs : List (Nat × Nat)}
    (h : DenoteAll m f items rs) (n : Mode) : ∃ ts, DenoteAll n f.wide items ts := by
  cases h with
  | nil => exact ⟨_, .nil⟩
  | cons hs hrs =>
    obtain ⟨t, ht⟩ := hs.wide n
    obtain ⟨ts, hts⟩ := hrs.wide n
    exact ⟨_, .cons ht hts⟩

end

/-! ## Patterns -/

theorem literal_wide (f : Flags) (m : Mode) (l : Literal) : ∃ h, literal? m f.wide l = some h := by
  have hchars : (!f.wide.unicode && l.isHighByte) = false := rfl
  unfold literal?
  rw [hchars, if_neg Bool.false_ne_true]
  dsimp only
  split <;> exact ⟨_, rfl⟩

theorem dot_wide (f : Flags) (m : Mode) : ∃ h, dot? m f.wide = some h := by
  have hchars : (decide (m = .unicode) && !f.wide.unicode) = false := Bool.and_false _
  unfold dot?
  rw [hchars, if_neg Bool.false_ne_true]
  exact ⟨_, rfl⟩

mutual

/-- A pattern that means something in ASCII, and never leaves the meanings of Unicode, means
something there. The flags behind it are those of the reading in ASCII, for Unicode. -/
theorem Resolves.wide {ast : Ast} {f f' : Flags} {h : Core} (hr : Resolves m f ast h f') (n : Mode)
    (hkeeps : ast.every (Ast.keeps .unicode) (fun _ => true) = true) :
    ∃ h', Resolves n f.wide ast h' f'.wide := by
  cases hr with
  | empty => exact ⟨_, .empty⟩
  | flags => exact ⟨.empty, wide_change hkeeps ▸ .flags⟩
  | @literal _ l _ _ =>
    obtain ⟨h', hliteral⟩ := literal_wide f n l
    exact ⟨h', .literal hliteral⟩
  | dot _ =>
    obtain ⟨h', hdot⟩ := dot_wide f n
    exact ⟨h', .dot hdot⟩
  | assertion => exact ⟨_, .assertion⟩
  | property hs =>
    obtain ⟨t, ht⟩ := propertySet_wide n hs
    exact ⟨_, .property ht⟩
  | letter _ =>
    obtain ⟨t, ht⟩ := letterSet_wide f n _ _
    exact ⟨_, .letter ht⟩
  | bracketed hs _ =>
    obtain ⟨t, ht⟩ := hs.wide n
    obtain ⟨u, hu⟩ := finish_wide f n _ t
    exact ⟨_, .bracketed ht hu⟩
  | repetition hsub =>
    obtain ⟨h', hsub'⟩ := hsub.wide n (and_of_every hkeeps).2
    exact ⟨_, .repetition hsub'⟩
  | capture hsub =>
    obtain ⟨h', hsub'⟩ := hsub.wide n (and_of_every hkeeps).2
    exact ⟨_, .capture hsub'⟩
  | plain hsub =>
    obtain ⟨hchange, hkeeps⟩ := and_of_every hkeeps
    -- the flags inside of the group are wide again, as the change does not clear the one
    obtain ⟨h', hsub'⟩ := hsub.wide n hkeeps
    rw [wide_change hchange] at hsub'
    exact ⟨_, .plain hsub'⟩
  | alternation hbranches =>
    obtain ⟨hs', hbranches'⟩ := hbranches.wide n (and_of_every hkeeps).2
    exact ⟨_, .alternation hbranches'⟩
  | concat hitems =>
    obtain ⟨hs', hitems'⟩ := hitems.wide n (and_of_every hkeeps).2
    exact ⟨_, .concat hitems'⟩

theorem ResolveAll.wide {items : List Ast} {f f' : Flags} {hs : List Core}
    (hr : ResolveAll m f items hs f') (n : Mode)
    (hkeeps : everyPart (Ast.keeps .unicode) (fun _ => true) items = true) :
    ∃ hs', ResolveAll n f.wide items hs' f'.wide := by
  cases hr with
  | nil => exact ⟨_, .nil⟩
  | cons hitem hitems =>
    obtain ⟨hkeeps, hkeeps'⟩ := and_of_every hkeeps
    -- the wide flags behind the item are those that the others are resolved under
    obtain ⟨h', hitem'⟩ := hitem.wide n hkeeps
    obtain ⟨hs', hitems'⟩ := hitems.wide n hkeeps'
    exact ⟨h' :: hs', .cons hitem' hitems'⟩

end

/-- A pattern that means something in ASCII does in Unicode, unless it leaves its meanings. -/
theorem meaning_of_ascii (hkeeps : ast.keepsUnicode = true)
    (hmeaning : meaning? .ascii ast = some h) : ∃ h', meaning? .unicode ast = some h' := by
  obtain ⟨_, hresolves⟩ := meaning_eq_some_iff.mp hmeaning
  obtain ⟨h', hresolves'⟩ := hresolves.wide .unicode hkeeps
  exact ⟨h', meaning_eq_some_iff.mpr ⟨_, hresolves'⟩⟩

end FlowSafety.Pattern

namespace FlowSafety

open Pattern

variable {pattern : String} {full : Bool}

/-! ## Guards -/

/-- Validation of a guard asks whether a text can be searched for its pattern. -/
theorem Path.validateCondition_matches {index : Nat} :
    Path.validateCondition index (.matchesPattern pattern full) = .ok () ↔
      isValid pattern = true := by
  unfold Path.validateCondition
  dsimp only
  split <;> simp [*]

/-- A check fails only on known values, where they cannot be searched for the pattern. -/
theorem TextGuarantee.matching_ok_iff {g : TextGuarantee} :
    (∃ r, g.matching pattern full = .ok r) ↔
      (g.values.isSome = true → isValid (anchored pattern full) = true) := by
  unfold matching isValid
  cases g.values with
  | some values =>
    dsimp only
    cases searcher? (anchored pattern full) <;> simp
  | none =>
    dsimp only
    cases shape? pattern full <;> simp

theorem TextGuarantee.matching_error {g : TextGuarantee} {e : PathFault}
    (h : g.matching pattern full = .error e) : e = .invalidPattern pattern := by
  unfold matching at h
  split at h
  · split at h
    · contradiction
    · cases h
      rfl
  · split at h <;> contradiction

/-- Where the readers of a pattern agree. A pattern that passes validation is refused by a check
only if the check is of known values against the whole pattern, and a comment at the end of the
pattern takes the closing parenthesis of its group, or the group is too deep or too large. A pattern
from which something is known about the texts that pass a check passes validation with `$` for a
closing `\Z`, if it does not leave the meanings of Unicode and is not too large. -/
theorem readers_agree (pattern : String) :
    (∀ index checked,
      Path.validateCondition index (.matchesPattern pattern checked) = .ok () →
        ∃ ast h, parse? pattern = some ast ∧ meaning? .unicode ast = some h ∧
          ∀ (g : TextGuarantee) full,
            ((∃ r, g.matching pattern full = .ok r) ↔
              (g.values.isSome = true → full = true →
                endsInComment pattern = false ∧ ast.depth + 2 ≤ maxDepth ∧
                  h.anchored.fits = true)) ∧
            ∀ e, g.matching pattern full = .error e → e = .invalidPattern pattern) ∧
    (∀ mode, (shape? pattern mode).isSome = true →
      ∃ ast, parse? (withDollar pattern) = some ast ∧
        (ast.keepsUnicode = true → ∃ h, meaning? .unicode ast = some h ∧
          ∀ index full,
            Path.validateCondition index (.matchesPattern (withDollar pattern) full) = .ok () ↔
              h.fits = true)) := by
  constructor
  · intro index checked hvalid
    obtain ⟨ast, h, hread, hmeaning, hfits⟩ :=
      isValid_iff.mp (Path.validateCondition_matches.mp hvalid)
    refine ⟨ast, h, hread, hmeaning, fun g full => ⟨?_, fun e => TextGuarantee.matching_error⟩⟩
    rw [TextGuarantee.matching_ok_iff, isValid_anchored_iff hread hmeaning hfits]
  · intro mode hshape
    obtain ⟨shape, hshape⟩ := Option.isSome_iff_exists.mp hshape
    obtain ⟨ast, hread, hshape⟩ := Option.bind_eq_some_iff.mp hshape
    obtain ⟨known, hknown, -⟩ := Option.bind_eq_some_iff.mp hshape
    refine ⟨ast, hread, fun hkeeps => ?_⟩
    obtain ⟨h, hmeaning⟩ := meaning_of_ascii hkeeps hknown
    refine ⟨h, hmeaning, fun index full => ?_⟩
    rw [Path.validateCondition_matches, isValid_iff]
    constructor
    · rintro ⟨ast', h', hread', hmeaning', hfits⟩
      cases hread.symm.trans hread'
      cases hmeaning.symm.trans hmeaning'
      exact hfits
    · intro hfits
      exact ⟨ast, h, hread, hmeaning, hfits⟩

/-- A pattern whose comment ends with its line passes validation, and a check for a whole text
filters known values by it. -/
theorem readers_agree_commented :
    let pattern := "(?x)^[a-f]$#\n"
    Path.validateCondition 1 (.matchesPattern pattern false) = .ok () ∧
      (shape? pattern false).isSome = true ∧
      (∃ r, (TextGuarantee.oneOf (.ofList ["a", "g"])).matching pattern true = .ok r) ∧
      Path.validateCondition 1 (.matchesPattern (withDollar pattern) true) = .ok () := by
  intro pattern
  have hvalid : Path.validateCondition 1 (.matchesPattern pattern false) = .ok () := by
    decide +kernel
  have hshape : (shape? pattern false).isSome = true := by decide +kernel
  obtain ⟨hcheck, hvalidate⟩ := readers_agree pattern
  refine ⟨hvalid, hshape, ?_, ?_⟩
  · obtain ⟨ast, h, hread, hmeaning, hmatching⟩ := hcheck 1 false hvalid
    have hdepth : ((parse? pattern).all fun ast => ast.depth + 2 ≤ maxDepth) = true := by
      decide +kernel
    have hfits : (((parse? pattern).bind (meaning? .unicode)).all fun h => h.anchored.fits) =
        true := by
      decide +kernel
    rw [hread] at hdepth hfits
    rw [Option.bind_some, hmeaning] at hfits
    refine (hmatching _ true).1.mpr fun _ _ => ⟨by decide +kernel, ?_, hfits⟩
    exact of_decide_eq_true hdepth
  · obtain ⟨ast, hread, hunicode⟩ := hvalidate false hshape
    have hkeeps : ((parse? (withDollar pattern)).all Ast.keepsUnicode) = true := by
      decide +kernel
    have hfits : (((parse? (withDollar pattern)).bind (meaning? .unicode)).all Core.fits) =
        true := by
      decide +kernel
    rw [hread] at hkeeps hfits
    obtain ⟨h, hmeaning, hvalid⟩ := hunicode hkeeps
    rw [Option.bind_some, hmeaning] at hfits
    exact (hvalid 1 true).mpr hfits

/-! ## Comments and closing anchors -/

/-- A tag that is on a list of one, checked as a whole against a pattern that ends in a comment, in
the body of a page. -/
def commentedTag : Path :=
  { version := pathVersion
    branches :=
      [{ parent := none, condition := .inAllowList (.ofList ["a"]), outcome := .passed },
        { parent := some 0, condition := .matchesPattern "(?x)a#c" true, outcome := .passed }]
    steps :=
      [⟨.source (.ofText "tag"), none⟩, ⟨.guard 0, some 0⟩, ⟨.guard 1, some 1⟩,
        ⟨.sink .htmlBody, some 1⟩] }

/-- A pattern that ends in a comment passes validation and is refused by a check of known values, so
that a path that is valid is not analysed. A pattern with a closing `\Z` says something about the
texts that pass a check, and does not pass validation. -/
theorem readers_disagree :
    (Path.validate commentedTag = .ok () ∧
      (TextGuarantee.oneOf (.ofList ["a"])).matching "(?x)a#c" true =
        .error (.invalidPattern "(?x)a#c") ∧
      ((Classifier.ofEntries 5 []).classify commentedTag).outcome = .unknown) ∧
    ((shape? "\\A[a-f]{1,4}\\Z" false).isSome = true ∧
      Path.validateCondition 1 (.matchesPattern "\\A[a-f]{1,4}\\Z" false) =
        .error (.malformed 1 (.invalidPattern "\\A[a-f]{1,4}\\Z"))) := by
  refine ⟨⟨?_, ?_, ?_⟩, ?_, ?_⟩ <;> decide +kernel

end FlowSafety
