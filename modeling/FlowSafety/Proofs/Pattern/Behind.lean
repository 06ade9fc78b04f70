import FlowSafety.Proofs.Pattern.Formed

/-!
# Characters behind a pattern

A pattern in a group reads as it reads alone: the closing parenthesis is not passed over, and no
part of the pattern takes it, unless the pattern ends in a comment, which then takes the parenthesis
as well. So every reader of a part answers the same where a parenthesis and a `$` are behind the
pattern.

* `Cursor.Extends` — the same place in a pattern with these characters behind it
* `Follows` — an answer where another reader answers, and how it is put together from parts
* `Stable` — a reader that answers the same there
* `stable_escape`, `stable_class`, `stable_bounds` — the readers of parts
-/

namespace FlowSafety.Pattern

/-- The characters behind the pattern. -/
def closing : List Char := [')', '$']

/-- The next character is not a given one where it was not. -/
theorem append_ne {cs : List Char} {d : Char} (hd : d ≠ ')') (h : ∀ cs', cs ≠ d :: cs') :
    ∀ cs', cs ++ closing ≠ d :: cs' := by
  intro cs' h'
  cases cs with
  | nil =>
    cases h'
    contradiction
  | cons c cs =>
    cases h'
    exact h cs rfl

namespace Cursor

variable {s s' t : Cursor} {c : Char} {cs : List Char}

/-! ## Places -/

/-- The same place where the closing characters are behind the pattern, unless a comment has taken
them. -/
def Extends (s s' : Cursor) : Prop :=
  s' = { s with rest := s.rest ++ closing } ∨ (s.rest = [] ∧ s' = s)

theorem isWhiteSpace_closing : Unicode.isWhiteSpace ')' = false := by decide +kernel

mutual

theorem afterBlanks_append : ∀ cs : List Char,
    afterBlanks (cs ++ closing) = afterBlanks cs ++ closing ∨
      (afterBlanks cs = [] ∧ afterBlanks (cs ++ closing) = [])
  | [] => by
    left
    have hstops : afterBlanks closing = closing := by
      rw [closing, afterBlanks, isWhiteSpace_closing]
      rfl
    exact hstops
  | c :: cs => by
    rw [List.cons_append, afterBlanks, afterBlanks]
    split
    · exact afterBlanks_append cs
    · split
      · exact afterComment_append cs
      · exact .inl rfl

theorem afterComment_append : ∀ cs : List Char,
    afterComment (cs ++ closing) = afterComment cs ++ closing ∨
      (afterComment cs = [] ∧ afterComment (cs ++ closing) = [])
  | [] => .inr ⟨rfl, rfl⟩
  | c :: cs => by
    rw [List.cons_append, afterComment, afterComment]
    split
    · exact afterBlanks_append cs
    · exact afterComment_append cs

end

mutual

theorem length_afterBlanks : ∀ cs : List Char, (afterBlanks cs).length ≤ cs.length
  | [] => Nat.le_refl 0
  | c :: cs => by
    rw [afterBlanks]
    split
    · exact Nat.le_succ_of_le (length_afterBlanks cs)
    · split
      · exact Nat.le_succ_of_le (length_afterComment cs)
      · exact Nat.le_refl _

theorem length_afterComment : ∀ cs : List Char, (afterComment cs).length ≤ cs.length
  | [] => Nat.le_refl 0
  | c :: cs => by
    rw [afterComment]
    split
    · exact Nat.le_succ_of_le (length_afterBlanks cs)
    · exact Nat.le_succ_of_le (length_afterComment cs)

end

theorem length_advanceSkip (hrest : s.rest = c :: cs) : s.advanceSkip.rest.length ≤ cs.length := by
  have htail : s.advance.rest = cs := by rw [advance, hrest, List.tail_cons]
  unfold advanceSkip skip
  split
  · exact htail ▸ length_afterBlanks _
  · exact Nat.le_of_eq (congrArg List.length htail)

namespace Extends

theorem skip (h : Extends s s') : Extends s.skip s'.skip := by
  rcases h with rfl | ⟨hrest, rfl⟩
  · unfold Cursor.skip
    split
    · rcases afterBlanks_append s.rest with h | ⟨h, h'⟩
      · exact .inl (by simp [h])
      · exact .inr ⟨h, by simp [h, h']⟩
    · exact .inl rfl
  · refine .inr ⟨?_, rfl⟩
    unfold Cursor.skip
    split
    · rw [hrest]
      rfl
    · exact hrest

/-- Where something is left to read, the closing characters are behind it. -/
theorem of_cons (h : Extends s s') (hrest : s.rest = c :: cs) :
    s' = ⟨c :: (cs ++ closing), s.ignoreBlank⟩ := by
  rcases h with rfl | ⟨hnil, -⟩
  · rw [hrest]
    rfl
  · rw [hrest] at hnil
    contradiction

theorem rest_of_cons (h : Extends s s') (hrest : s.rest = c :: cs) :
    s'.rest = c :: (cs ++ closing) := by
  rw [h.of_cons hrest]

theorem ignoreBlank_eq (h : Extends s s') : s'.ignoreBlank = s.ignoreBlank := by
  rcases h with rfl | ⟨-, rfl⟩ <;> rfl

/-- Where nothing is left to read, the next character is the closing one, or there is none. -/
theorem rest_of_nil (h : Extends s s') (hrest : s.rest = []) :
    s'.rest = closing ∨ s'.rest = [] := by
  rcases h with rfl | ⟨-, rfl⟩
  · left
    rw [hrest]
    rfl
  · exact .inr hrest

theorem advance (h : Extends s s') (hrest : s.rest = c :: cs) : Extends s.advance s'.advance := by
  left
  rw [h.of_cons hrest, Cursor.advance, Cursor.advance, hrest]
  rfl

theorem advanceSkip (h : Extends s s') (hrest : s.rest = c :: cs) :
    Extends s.advanceSkip s'.advanceSkip :=
  (h.advance hrest).skip

theorem behind (h : Extends s s') (rest : List Char) :
    Extends { s with rest := rest } { s' with rest := rest ++ closing } := by
  left
  rw [h.ignoreBlank_eq]

theorem length_le (h : Extends s s') : s.rest.length ≤ s'.rest.length := by
  rcases h with rfl | ⟨-, rfl⟩
  · rw [List.length_append]
    exact Nat.le_add_right _ _
  · exact Nat.le_refl _

/-- The next character is a given one where it was, and nowhere else. -/
theorem starts_or {d : Char} (h : Extends s s') (hd : d ≠ ')') :
    (∃ cs, s.rest = d :: cs) ∨ ((∀ cs, s.rest ≠ d :: cs) ∧ ∀ cs, s'.rest ≠ d :: cs) := by
  by_cases hstarts : ∃ cs, s.rest = d :: cs
  · exact .inl hstarts
  · have hnone : ∀ cs, s.rest ≠ d :: cs := fun cs h => hstarts ⟨cs, h⟩
    refine .inr ⟨hnone, ?_⟩
    rcases h with rfl | ⟨-, rfl⟩
    · exact append_ne hd hnone
    · exact hnone

end Extends

end Cursor

/-! ## Answers -/

section

variable {α β γ δ : Type} {r : α → β → Prop} {q : γ → δ → Prop} {o u : Option α} {o' u' : Option β}

/-- Where there is an answer, there is a related one elsewhere. -/
def Follows (r : α → β → Prop) (o : Option α) (o' : Option β) : Prop :=
  ∀ a, o = some a → ∃ b, o' = some b ∧ r a b

namespace Follows

theorem of_none : Follows r none o' := fun _ h => nomatch h

theorem of_some {a : α} {b : β} (h : r a b) : Follows r (some a) (some b) := by
  rintro _ ⟨⟩
  exact ⟨b, rfl, h⟩

theorem refl (o : Option α) : Follows Eq o o := fun a h => ⟨a, h, rfl⟩

theorem bind {f : α → Option γ} {g : β → Option δ} (h : Follows r o o')
    (hf : ∀ a b, r a b → Follows q (f a) (g b)) : Follows q (o.bind f) (o'.bind g) := by
  intro c hc
  obtain ⟨a, ha, hc⟩ := Option.bind_eq_some_iff.mp hc
  obtain ⟨b, hb, hab⟩ := h a ha
  rw [hb]
  exact hf a b hab c hc

theorem map {f : α → γ} {g : β → δ} (h : Follows r o o') (hf : ∀ a b, r a b → q (f a) (g b)) :
    Follows q (o.map f) (o'.map g) := by
  intro c hc
  obtain ⟨a, ha, rfl⟩ := Option.map_eq_some_iff.mp hc
  obtain ⟨b, hb, hab⟩ := h a ha
  exact ⟨g b, by rw [hb, Option.map_some], hf a b hab⟩

theorem ite {p : Prop} [Decidable p] (h : p → Follows r o o') (h' : ¬ p → Follows r u u') :
    Follows r (if p then o else u) (if p then o' else u') := by
  by_cases hp : p
  · rw [if_pos hp, if_pos hp]
    exact h hp
  · rw [if_neg hp, if_neg hp]
    exact h' hp

end Follows

end

variable {α β : Type} {s s' t t' : Cursor} {c : Char} {cs : List Char}

/-- The same part, read up to the same place. -/
structure Alike (a b : α × Cursor) : Prop where
  part : b.1 = a.1
  behind : a.2.Extends b.2

/-- A reader that answers the same where the closing characters are behind the pattern. -/
def Stable (read : Cursor → Option (α × Cursor)) : Prop :=
  ∀ ⦃s s'⦄, s.Extends s' → Follows Alike (read s) (read s')

theorem Follows.mapPart {o o' : Option (α × Cursor)} (h : Follows Alike o o') (f : α → β) :
    Follows Alike (o.map fun a => (f a.1, a.2)) (o'.map fun a => (f a.1, a.2)) :=
  h.map fun _ _ hab => ⟨congrArg f hab.part, hab.behind⟩

/-- An answer that a closing brace is needed for. -/
theorem follows_brace {r : α → β → Prop} {o : Option α} {o' : Option β}
    (h : ∀ cs, t.rest = '}' :: cs → t.Extends t' ∧ Follows r o o') :
    Follows r (match t.rest with
        | '}' :: _ => o
        | _ => none)
      (match t'.rest with
        | '}' :: _ => o'
        | _ => none) := by
  split
  · rename_i cs hclose
    obtain ⟨hext, hfollows⟩ := h cs hclose
    rw [hext.rest_of_cons hclose]
    exact hfollows
  · exact .of_none

namespace Cursor

theorem takeWhile_cons {n : Nat} {test : Char → Bool} (hrest : s.rest = c :: cs) :
    takeWhile (n + 1) test s =
      if test c then
        (c :: (takeWhile n test s.advanceSkip).1, (takeWhile n test s.advanceSkip).2)
      else ([], s) := by
  rw [takeWhile, hrest]

theorem takeWhile_stops {n : Nat} {test : Char → Bool}
    (h : ∀ c cs, s.rest = c :: cs → test c = false) : takeWhile n test s = ([], s) := by
  cases n with
  | zero => rfl
  | succ n =>
    rw [takeWhile]
    split
    · rename_i c cs hrest
      rw [h c cs hrest]
      rfl
    · rfl

/-- Where nothing is left to read, no characters are taken. -/
theorem takeWhile_of_nil {n n' : Nat} {test : Char → Bool} (h : Extends s s') (hrest : s.rest = [])
    (hstop : test ')' = false ∨ (takeWhile n test s).2.rest ≠ []) :
    Alike (takeWhile n test s) (takeWhile n' test s') := by
  have hnone : takeWhile n test s = ([], s) :=
    takeWhile_stops fun c cs hcons => by rw [hrest] at hcons; contradiction
  rw [hnone] at hstop ⊢
  have hstop : test ')' = false := hstop.resolve_right fun h => h hrest
  have hnone' : takeWhile n' test s' = ([], s') := by
    refine takeWhile_stops fun c cs hcons => ?_
    rcases h.rest_of_nil hrest with h | h
    · rw [h] at hcons
      cases hcons
      exact hstop
    · rw [h] at hcons
      contradiction
  rw [hnone']
  exact ⟨rfl, h⟩

/-- Taking characters stops at the same place, if the closing one does not pass the test or if it is
not reached. -/
theorem takeWhile_alike {n n' : Nat} {test : Char → Bool} (h : Extends s s')
    (hn : s.rest.length ≤ n) (hle : n ≤ n')
    (hstop : test ')' = false ∨ (takeWhile n test s).2.rest ≠ []) :
    Alike (takeWhile n test s) (takeWhile n' test s') := by
  induction n generalizing s s' n' with
  | zero => exact takeWhile_of_nil h (List.length_eq_zero_iff.mp (Nat.le_zero.mp hn)) hstop
  | succ n ih =>
    obtain ⟨m, rfl⟩ :=
      Nat.exists_eq_add_of_le' (Nat.le_trans (Nat.succ_le_succ (Nat.zero_le n)) hle)
    cases hrest : s.rest with
    | nil => exact takeWhile_of_nil h hrest hstop
    | cons c cs =>
      rw [takeWhile_cons hrest] at hstop ⊢
      rw [takeWhile_cons (h.rest_of_cons hrest)]
      by_cases htest : test c = true
      · rw [if_pos htest] at hstop ⊢
        rw [if_pos htest]
        have hlength : s.advanceSkip.rest.length ≤ n := by
          have := length_advanceSkip hrest
          rw [hrest, List.length_cons] at hn
          omega
        obtain ⟨htaken, hbehind⟩ :=
          ih (h.advanceSkip hrest) hlength (Nat.le_of_succ_le_succ hle) hstop
        exact ⟨congrArg (c :: ·) htaken, hbehind⟩
      · rw [if_neg htest, if_neg htest]
        exact ⟨rfl, h⟩

/-- The same behind an opening character. -/
theorem takeWhile_behind {test : Char → Bool} (h : Extends s s') (hrest : s.rest = c :: cs)
    (hstop : test ')' = false ∨ (takeWhile s.rest.length test s.advanceSkip).2.rest ≠ []) :
    Alike (takeWhile s.rest.length test s.advanceSkip)
      (takeWhile s'.rest.length test s'.advanceSkip) := by
  have hlength : s.advanceSkip.rest.length ≤ s.rest.length := by
    have := length_advanceSkip hrest
    rw [hrest, List.length_cons]
    omega
  exact takeWhile_alike (h.advanceSkip hrest) hlength h.length_le hstop

end Cursor

/-! ## Escapes -/

theorem stable_hexDigits {n : Nat} : Stable (hexDigits? n) := by
  induction n with
  | zero => exact fun s s' hs => .of_some ⟨rfl, hs⟩
  | succ n ih =>
    intro s s' hs
    cases hrest : s.rest with
    | nil =>
      rw [hexDigits?, hrest]
      exact .of_none
    | cons c cs =>
      rw [hexDigits?, hexDigits?, hrest, hs.rest_of_cons hrest]
      exact .ite (fun _ => (ih (hs.advanceSkip hrest)).mapPart (c :: ·)) fun _ => .of_none

theorem hexLiteral_brace {width : Nat} (hrest : s.rest = '{' :: cs) :
    hexLiteral? width s =
      let r := Cursor.takeWhile s.rest.length isHexDigit s.advanceSkip
      match r.2.rest with
      | '}' :: _ =>
        if r.1.isEmpty then none
        else (charOfHex? r.1).map fun c => ({ char := c }, r.2.advanceSkip)
      | _ => none := by
  rw [hexLiteral?, hrest]
  rfl

theorem hexLiteral_digits {width : Nat} (hrest : s.rest = c :: cs) (hc : c ≠ '{') :
    hexLiteral? width s =
      (hexDigits? width s).bind fun (digits, s) =>
        (charOfHex? digits).map fun c => ({ char := c, byte := width = 2 }, s) := by
  rw [hexLiteral?, hrest]
  split
  · rename_i heq
    cases heq
    contradiction
  · contradiction
  · rfl

theorem stable_hexLiteral {width : Nat} : Stable (hexLiteral? width) := by
  intro s s' hs
  cases hrest : s.rest with
  | nil =>
    rw [hexLiteral?, hrest]
    exact .of_none
  | cons c cs =>
    have hrest' := hs.rest_of_cons hrest
    by_cases hc : c = '{'
    · subst hc
      obtain ⟨hdigits, hbehind⟩ :=
        Cursor.takeWhile_behind hs hrest (.inl (show isHexDigit ')' = false by decide))
      rw [hexLiteral_brace hrest, hexLiteral_brace hrest']
      dsimp only
      rw [hdigits]
      refine follows_brace fun cs hclose => ⟨hbehind, .ite (fun _ => .of_none) fun _ => ?_⟩
      refine (Follows.refl _).map ?_
      rintro c _ rfl
      exact ⟨rfl, hbehind.advanceSkip hclose⟩
    · rw [hexLiteral_digits hrest hc, hexLiteral_digits hrest' hc]
      refine (stable_hexDigits hs).bind ?_
      rintro ⟨_, t⟩ ⟨digits, t'⟩ ⟨rfl, ht⟩
      refine (Follows.refl _).map ?_
      rintro c _ rfl
      exact ⟨rfl, ht⟩

theorem propertyClass_brace {negated : Bool} (hrest : s.rest = '{' :: cs) :
    propertyClass? negated s =
      let r := Cursor.takeWhile s.rest.length (· ≠ '}') s.advanceSkip
      match r.2.rest with
      | '}' :: _ => some (.property (propertyQuery r.1) negated, r.2.advance)
      | _ => none := by
  rw [propertyClass?, hrest]
  rfl

theorem propertyClass_char {negated : Bool} (hrest : s.rest = c :: cs) (hc : c ≠ '{') :
    propertyClass? negated s =
      if c = '\\' then none
      else some (.property (.named (String.singleton c)) negated, s.advance) := by
  rw [propertyClass?, hrest]
  split
  · contradiction
  · rename_i heq
    cases heq
    contradiction
  · rename_i heq
    cases heq
    rfl
  · rename_i hslash heq
    cases heq
    rw [if_neg hslash]

theorem stable_propertyClass {negated : Bool} : Stable (propertyClass? negated) := by
  intro s s' hs
  cases hrest : s.rest with
  | nil =>
    rw [propertyClass?, hrest]
    exact .of_none
  | cons c cs =>
    have hrest' := hs.rest_of_cons hrest
    by_cases hc : c = '{'
    · subst hc
      rw [propertyClass_brace hrest, propertyClass_brace hrest']
      refine follows_brace fun cs hclose => ?_
      -- a parenthesis may stand in the query, so it counts that its brace is reached before
      obtain ⟨hquery, hbehind⟩ := Cursor.takeWhile_behind hs hrest
        (.inr fun hnil => by rw [hclose] at hnil; contradiction)
      refine ⟨hbehind, .of_some ⟨?_, hbehind.advance hclose⟩⟩
      rw [hquery]
    · rw [propertyClass_char hrest hc, propertyClass_char hrest' hc]
      exact .ite (fun _ => .of_none) fun _ => .of_some ⟨rfl, hs.advance hrest⟩

theorem wordCondition_plain (h : ∀ cs, s.rest ≠ '{' :: cs) :
    wordCondition? s = some (.boundary, s) := by
  unfold wordCondition?
  split
  · rename_i cs hrest
    exact absurd hrest (h cs)
  · rfl

theorem wordCondition_brace (hrest : s.rest = '{' :: cs) :
    wordCondition? s =
      match s.advanceSkip.rest with
      | [] => none
      | c :: _ =>
        if isConditionChar c then
          let r := Cursor.takeWhile s.advanceSkip.rest.length isConditionChar s.advanceSkip
          match r.2.rest with
          | '}' :: _ =>
            (wordConditionNamed? (String.ofList r.1)).map fun condition => (condition, r.2.advance)
          | _ => none
        else some (.boundary, s) := by
  rw [wordCondition?, hrest]
  rfl

theorem stable_wordCondition : Stable wordCondition? := by
  intro s s' hs
  rcases hs.starts_or (show '{' ≠ ')' by decide) with ⟨cs, hrest⟩ | ⟨hplain, hplain'⟩
  · have hinside := hs.advanceSkip hrest
    obtain ⟨hname, hbehind⟩ := Cursor.takeWhile_alike hinside (Nat.le_refl _) hinside.length_le
      (.inl (show isConditionChar ')' = false by decide))
    rw [wordCondition_brace hrest, wordCondition_brace (hs.rest_of_cons hrest)]
    dsimp only
    rw [hname]
    cases hfirst : s.advanceSkip.rest with
    | nil => exact .of_none
    | cons c cs =>
      rw [hfirst] at hbehind
      rw [hinside.rest_of_cons hfirst] at hbehind ⊢
      refine .ite (fun _ => follows_brace fun cs hclose => ⟨hbehind, ?_⟩) fun _ =>
        .of_some ⟨rfl, hs⟩
      refine (Follows.refl _).map ?_
      rintro condition _ rfl
      exact ⟨rfl, hbehind.advance hclose⟩
  · rw [wordCondition_plain hplain, wordCondition_plain hplain']
    exact .of_some ⟨rfl, hs⟩

theorem stable_escape : Stable escape? := by
  intro s s' hs
  cases hrest : s.rest with
  | nil =>
    rw [escape?, hrest]
    exact .of_none
  | cons c cs =>
    have hnext := hs.advance hrest
    have hskip := hs.advanceSkip hrest
    unfold escape?
    rw [hrest, hs.rest_of_cons hrest]
    dsimp only
    split
    case h_1 | h_2 | h_3 => exact (stable_hexLiteral hskip).mapPart Primitive.literal
    case h_4 | h_5 => exact stable_propertyClass hskip
    case h_20 => exact (stable_wordCondition hnext).mapPart fun w => Primitive.assertion (.word w)
    case h_24 =>
      exact .ite (fun _ => .of_some ⟨rfl, hnext⟩) fun _ => .of_none
    all_goals exact .of_some ⟨rfl, hnext⟩

/-! ## Classes -/

theorem classPrimitive_char (hrest : s.rest = c :: cs) (hc : c ≠ '\\') :
    classPrimitive? s = some (.literal { char := c }, s.advance) := by
  rw [classPrimitive?, hrest]
  split
  · contradiction
  · rename_i heq
    cases heq
    contradiction
  · rename_i heq
    cases heq
    rfl

theorem stable_classPrimitive : Stable classPrimitive? := by
  intro s s' hs
  cases hrest : s.rest with
  | nil =>
    rw [classPrimitive?, hrest]
    exact .of_none
  | cons c cs =>
    have hrest' := hs.rest_of_cons hrest
    have hnext := hs.advance hrest
    by_cases hc : c = '\\'
    · subst hc
      rw [classPrimitive?, classPrimitive?, hrest, hrest']
      exact stable_escape hnext
    · rw [classPrimitive_char hrest hc, classPrimitive_char hrest' hc]
      exact .of_some ⟨rfl, hnext⟩

theorem dropWhile_closing {test : Char → Bool} (h : test ')' = false) :
    (cs ++ closing).dropWhile test = cs.dropWhile test ++ closing := by
  have hclosing : closing.dropWhile test = closing := List.dropWhile_cons_of_neg (by simp [h])
  rw [List.dropWhile_append, hclosing]
  split
  · rename_i hempty
    rw [List.isEmpty_iff.mp hempty, List.nil_append]
  · rfl

/-- What follows blanks and the mark of a comment. -/
def behindBlanks (cs : List Char) : List Char :=
  let seen := cs.dropWhile Unicode.isWhiteSpace
  match seen with
  | '#' :: more => more.dropWhile Unicode.isWhiteSpace
  | _ => seen

theorem behindBlanks_of_mark {more : List Char}
    (h : cs.dropWhile Unicode.isWhiteSpace = '#' :: more) :
    behindBlanks cs = more.dropWhile Unicode.isWhiteSpace := by
  unfold behindBlanks
  rw [h]
  rfl

theorem behindBlanks_of_other (h : ∀ more, cs.dropWhile Unicode.isWhiteSpace ≠ '#' :: more) :
    behindBlanks cs = cs.dropWhile Unicode.isWhiteSpace := by
  unfold behindBlanks
  dsimp only
  split
  · rename_i more heq
    exact absurd heq (h more)
  · rfl

theorem behindBlanks_append : behindBlanks (cs ++ closing) = behindBlanks cs ++ closing := by
  have hseen := @dropWhile_closing cs _ Cursor.isWhiteSpace_closing
  by_cases hmark : ∃ more, cs.dropWhile Unicode.isWhiteSpace = '#' :: more
  · obtain ⟨more, hmore⟩ := hmark
    rw [hmore, List.cons_append] at hseen
    rw [behindBlanks_of_mark hmore, behindBlanks_of_mark hseen,
      dropWhile_closing Cursor.isWhiteSpace_closing]
  · have hother : ∀ more, cs.dropWhile Unicode.isWhiteSpace ≠ '#' :: more :=
      fun more h => hmark ⟨more, h⟩
    rw [behindBlanks_of_other hother, behindBlanks_of_other, hseen]
    rw [hseen]
    exact append_ne (by decide) hother

theorem head_behindBlanks {d : Char} (hmark : d ≠ '#') (hblank : Unicode.isWhiteSpace d = false)
    (h : cs.head? = some d) : (behindBlanks cs).head? = some d := by
  obtain ⟨more, rfl⟩ := List.head?_eq_some_iff.mp h
  have hseen : (d :: more).dropWhile Unicode.isWhiteSpace = d :: more :=
    List.dropWhile_cons_of_neg (by simp [hblank])
  rw [behindBlanks_of_other, hseen, List.head?_cons]
  rw [hseen]
  rintro more' heq
  cases heq
  contradiction

theorem peek_eq :
    s.peek? =
      if s.ignoreBlank then
        if (behindBlanks s.rest.tail).isEmpty then s.rest.tail.head?
        else (behindBlanks s.rest.tail).head?
      else s.rest.tail.head? := rfl

/-- The character behind a dash is a bracket or another dash only where it was. -/
theorem peek_extends {d : Char} (hs : s.Extends s') (hrest : s.rest = c :: cs)
    (hclosing : d ≠ ')') (hmark : d ≠ '#') (hblank : Unicode.isWhiteSpace d = false) :
    s'.peek? = some d ↔ s.peek? = some d := by
  have hhead : ∀ {cs : List Char}, (cs ++ closing).head? = some d ↔ cs.head? = some d := by
    intro cs
    cases cs with
    | nil => simp [closing, Ne.symm hclosing]
    | cons c cs => rfl
  have htail : s.rest.tail = cs := by rw [hrest, List.tail_cons]
  have htail' : s'.rest.tail = cs ++ closing := by rw [hs.rest_of_cons hrest, List.tail_cons]
  rw [peek_eq, peek_eq, hs.ignoreBlank_eq, htail, htail']
  split
  · rw [behindBlanks_append]
    have hstart := @head_behindBlanks cs _ hmark hblank
    cases hseen : behindBlanks cs with
    | nil =>
      rw [hseen] at hstart
      have hother : ¬ cs.head? = some d := fun h => by
        have := hstart h
        contradiction
      simp [closing, Ne.symm hclosing, hother]
    | cons c more => simp
  · exact hhead

/-- What a class item is, once its first character and that behind it are known. -/
theorem classItem_eq :
    classItem? s = (classPrimitive? s).bind fun r =>
      match r.2.skip.rest with
      | [] => none
      | c :: _ =>
        if c ≠ '-' ∨ r.2.skip.peek? = some ']' ∨ r.2.skip.peek? = some '-' then
          r.1.toClassItem?.map fun item => (item, r.2.skip)
        else
          (classPrimitive? r.2.skip.advanceSkip).bind fun q =>
            r.1.toLiteral?.bind fun first => q.1.toLiteral?.bind fun last =>
              if first.char ≤ last.char then some (.range first last, q.2) else none := rfl

theorem stable_classItem : Stable classItem? := by
  intro s s' hs
  rw [classItem_eq, classItem_eq]
  refine (stable_classPrimitive hs).bind ?_
  rintro ⟨_, t⟩ ⟨first, t'⟩ ⟨rfl, ht⟩
  have hskip := ht.skip
  dsimp only
  cases hrest : t.skip.rest with
  | nil => exact .of_none
  | cons c cs =>
    rw [hskip.rest_of_cons hrest]
    have hbracket : t'.skip.peek? = some ']' ↔ t.skip.peek? = some ']' :=
      peek_extends hskip hrest (by decide) (by decide) (by decide +kernel)
    have hdash : t'.skip.peek? = some '-' ↔ t.skip.peek? = some '-' :=
      peek_extends hskip hrest (by decide) (by decide) (by decide +kernel)
    simp only [hbracket, hdash]
    refine .ite (fun _ => ?_) fun _ => ?_
    · refine (Follows.refl _).map ?_
      rintro item _ rfl
      exact ⟨rfl, hskip⟩
    · refine (stable_classPrimitive (hskip.advanceSkip hrest)).bind ?_
      rintro ⟨_, u⟩ ⟨last, u'⟩ ⟨rfl, hu⟩
      refine (Follows.refl _).bind ?_
      rintro low _ rfl
      refine (Follows.refl _).bind ?_
      rintro high _ rfl
      exact .ite (fun _ => .of_some ⟨rfl, hu⟩) fun _ => .of_none

theorem classNamed_close {negated : Bool} {rest : List Char}
    (h : cs.dropWhile (· ≠ ':') = ':' :: ']' :: rest) :
    classNamed? negated cs =
      (NamedClass.ofName? (String.ofList (cs.takeWhile (· ≠ ':')))).map fun kind =>
        (.named kind negated, rest) := by
  unfold classNamed?
  rw [h]
  rfl

theorem classNamed_other {negated : Bool}
    (h : ∀ rest, cs.dropWhile (· ≠ ':') ≠ ':' :: ']' :: rest) :
    classNamed? negated cs = none := by
  unfold classNamed?
  split
  · rename_i rest heq
    exact absurd heq (h rest)
  · rfl

theorem takeWhile_closing {test : Char → Bool} {more : List Char}
    (h : cs.dropWhile test = c :: more) :
    (cs ++ closing).takeWhile test = cs.takeWhile test ∧
      (cs ++ closing).dropWhile test = c :: (more ++ closing) := by
  constructor
  · rw [List.takeWhile_append, if_neg]
    intro hlength
    have hsplit := congrArg List.length (List.takeWhile_append_dropWhile (p := test) (l := cs))
    rw [List.length_append, h, List.length_cons] at hsplit
    omega
  · rw [List.dropWhile_append, h, List.isEmpty_cons, if_neg Bool.false_ne_true, List.cons_append]

theorem classNamed_append {negated : Bool} :
    classNamed? negated (cs ++ closing) =
      (classNamed? negated cs).map fun r => (r.1, r.2 ++ closing) := by
  by_cases hclose : ∃ rest, cs.dropWhile (· ≠ ':') = ':' :: ']' :: rest
  · obtain ⟨rest, hrest⟩ := hclose
    obtain ⟨htake, hdrop⟩ := takeWhile_closing hrest
    rw [classNamed_close hrest, classNamed_close hdrop, htake, Option.map_map]
    rfl
  · have hother : ∀ rest, cs.dropWhile (· ≠ ':') ≠ ':' :: ']' :: rest := fun rest h =>
      hclose ⟨rest, h⟩
    rw [classNamed_other hother, classNamed_other, Option.map_none]
    intro rest h
    cases hdrop : cs.dropWhile (· ≠ ':') with
    | nil =>
      rw [List.dropWhile_append, hdrop] at h
      contradiction
    | cons c more =>
      rw [(takeWhile_closing hdrop).2] at h
      cases more with
      | nil => cases h
      | cons c' more =>
        cases h
        exact hother more hdrop

theorem namedClass_plain (h : ∀ cs', cs ≠ '^' :: cs') :
    namedClass? (':' :: cs) = classNamed? false cs := by
  rw [namedClass?]
  exact h

theorem namedClass_other (h : ∀ cs', cs ≠ ':' :: cs') : namedClass? cs = none := by
  rw [namedClass?]
  · exact fun cs' => h ('^' :: cs')
  · exact h

/-- Whether a named class follows does not depend on what is behind the pattern. -/
theorem namedClass_append :
    namedClass? (cs ++ closing) = (namedClass? cs).map fun r => (r.1, r.2 ++ closing) := by
  by_cases hname : ∃ cs', cs = ':' :: cs'
  · obtain ⟨cs, rfl⟩ := hname
    by_cases hmark : ∃ cs', cs = '^' :: cs'
    · obtain ⟨cs, rfl⟩ := hmark
      exact classNamed_append
    · have hplain : ∀ cs', cs ≠ '^' :: cs' := fun cs' h => hmark ⟨cs', h⟩
      rw [List.cons_append, namedClass_plain hplain, namedClass_plain, classNamed_append]
      exact append_ne (by decide) hplain
  · have hother : ∀ cs', cs ≠ ':' :: cs' := fun cs' h => hname ⟨cs', h⟩
    rw [namedClass_other hother, namedClass_other (append_ne (by decide) hother)]
    rfl

theorem leadingDashes_of_nil {n : Nat} (h : ∀ cs, s.rest ≠ '-' :: cs) :
    leadingDashes n s = ([], s) := by
  cases n with
  | zero => rfl
  | succ n =>
    unfold leadingDashes
    split
    · rename_i cs hrest
      exact absurd hrest (h cs)
    · rfl

theorem leadingDashes_dash {n : Nat} (hrest : s.rest = '-' :: cs) :
    leadingDashes (n + 1) s = (.literal { char := '-' } :: (leadingDashes n s.advanceSkip).1,
      (leadingDashes n s.advanceSkip).2) := by
  rw [leadingDashes, hrest]
  rfl

theorem leadingDashes_alike {n n' : Nat} (hs : s.Extends s') (hn : s.rest.length ≤ n)
    (hle : n ≤ n') : Alike (leadingDashes n s) (leadingDashes n' s') := by
  induction n generalizing s s' n' with
  | zero =>
    rcases hs.starts_or (show '-' ≠ ')' by decide) with ⟨cs, hrest⟩ | ⟨-, hplain'⟩
    · rw [hrest] at hn
      contradiction
    · rw [leadingDashes_of_nil hplain']
      exact ⟨rfl, hs⟩
  | succ n ih =>
    obtain ⟨m, rfl⟩ :=
      Nat.exists_eq_add_of_le' (Nat.le_trans (Nat.succ_le_succ (Nat.zero_le n)) hle)
    rcases hs.starts_or (show '-' ≠ ')' by decide) with ⟨cs, hrest⟩ | ⟨hplain, hplain'⟩
    · rw [leadingDashes_dash hrest, leadingDashes_dash (hs.rest_of_cons hrest)]
      have hlength : s.advanceSkip.rest.length ≤ n := by
        have := Cursor.length_advanceSkip hrest
        rw [hrest, List.length_cons] at hn
        omega
      obtain ⟨hitems, hbehind⟩ := ih (hs.advanceSkip hrest) hlength (Nat.le_of_succ_le_succ hle)
      exact ⟨congrArg (.literal { char := '-' } :: ·) hitems, hbehind⟩
    · rw [leadingDashes_of_nil hplain, leadingDashes_of_nil hplain']
      exact ⟨rfl, hs⟩

theorem negation_plain (h : ∀ cs, s.rest ≠ '^' :: cs) : negation s = (false, s) := by
  unfold negation
  split
  · rename_i cs hrest
    exact absurd hrest (h cs)
  · rfl

theorem negation_alike (hs : s.Extends s') : Alike (negation s) (negation s') := by
  rcases hs.starts_or (show '^' ≠ ')' by decide) with ⟨cs, hrest⟩ | ⟨hplain, hplain'⟩
  · rw [negation, negation, hrest, hs.rest_of_cons hrest]
    exact ⟨rfl, hs.advanceSkip hrest⟩
  · rw [negation_plain hplain, negation_plain hplain']
    exact ⟨rfl, hs⟩

theorem firstItems_other {dashes : List ClassSet} (hrest : s.rest = c :: cs) (hc : c ≠ ']') :
    firstItems? dashes s = some (dashes, s) := by
  rw [firstItems?, hrest]
  split
  · contradiction
  · rename_i heq
    cases heq
    contradiction
  · rfl

theorem stable_firstItems {dashes : List ClassSet} : Stable (firstItems? dashes) := by
  intro s s' hs
  cases hrest : s.rest with
  | nil =>
    rw [firstItems?, hrest]
    exact .of_none
  | cons c cs =>
    have hrest' := hs.rest_of_cons hrest
    by_cases hc : c = ']'
    · subst hc
      rw [firstItems?, firstItems?, hrest, hrest']
      refine .ite (fun _ => ?_) fun _ => .of_some ⟨rfl, hs⟩
      have hskip := hs.advanceSkip hrest
      dsimp only
      cases hbehind : s.advanceSkip.rest with
      | nil => exact .of_none
      | cons c' cs' =>
        rw [hskip.rest_of_cons hbehind]
        exact .of_some ⟨rfl, hskip⟩
    · rw [firstItems_other hrest hc, firstItems_other hrest' hc]
      exact .of_some ⟨rfl, hs⟩

/-- The bracket is opened alike: its negation, its first items, and the place behind. -/
theorem openBracket_follows (hs : s.Extends s') (hrest : s.rest = c :: cs) :
    Follows (fun a b => b.1 = a.1 ∧ Alike a.2 b.2) (openBracket? s) (openBracket? s') := by
  obtain ⟨hnegated, hnext⟩ := negation_alike (hs.advanceSkip hrest)
  obtain ⟨hdashes, hnext⟩ := leadingDashes_alike hnext (Nat.le_refl _) hnext.length_le
  rw [openBracket_eq, openBracket_eq, hdashes, hnegated]
  exact (stable_firstItems hnext).map fun _ _ h => ⟨rfl, h⟩

theorem classOp_extends (hs : s.Extends s') : classOp? s' = classOp? s := by
  rcases hs with rfl | ⟨-, rfl⟩
  · unfold classOp?
    dsimp only
    match s.rest with
    | [] => rfl
    | [c] =>
      change (if c = ')' then ClassOp.ofSign? c else none) = none
      split
      · rename_i hc
        rw [hc]
        rfl
      · rfl
    | c :: d :: rest => rfl
  · rfl

theorem rest_of_classOp {op : ClassOp} (h : classOp? s = some op) :
    ∃ c d rest, s.rest = c :: d :: rest := by
  unfold classOp? at h
  split at h
  · exact ⟨_, _, _, ‹_›⟩
  · contradiction

/-- What follows on neither a bracket that opens nor one that closes. -/
theorem classFrom_other {n : Nat} {b : OpenBracket} {around : List OpenBracket}
    {items : List ClassSet} (hrest : s.skip.rest = c :: cs) (hopen : c ≠ '[') (hclose : c ≠ ']') :
    classFrom? (n + 1) b around items s =
      match classOp? s.skip with
      | some op =>
        classFrom? n { b with pending := some (op, b.close (setOfItems items)) } around []
          s.skip.advance.advance
      | none => (classItem? s.skip).bind fun r => classFrom? n b around (r.1 :: items) r.2 := by
  rw [classFrom?, hrest]
  dsimp only
  split
  · contradiction
  · rename_i heq
    cases heq
    contradiction
  · rename_i heq
    cases heq
    contradiction
  · rfl

theorem classFrom_open {n : Nat} {b : OpenBracket} {around : List OpenBracket}
    {items : List ClassSet} (hrest : s.skip.rest = '[' :: cs) :
    classFrom? (n + 1) b around items s =
      match namedClass? cs with
      | some (item, rest) => classFrom? n b around (item :: items) { s.skip with rest := rest }
      | none =>
        (openBracket? s.skip).bind fun (negated, inner, s) =>
          classFrom? n { negated := negated, pending := none, outer := items } (b :: around)
            inner.reverse s := by
  rw [classFrom?, hrest]
  rfl

theorem classFrom_close {n : Nat} {b : OpenBracket} {around : List OpenBracket}
    {items : List ClassSet} (hrest : s.skip.rest = ']' :: cs) :
    classFrom? (n + 1) b around items s =
      match around with
      | [] => some (.bracketed b.negated (b.close (setOfItems items)), s.skip.advance)
      | outer :: around =>
        classFrom? n outer around
          (.bracketed b.negated (b.close (setOfItems items)) :: b.outer) s.skip.advance := by
  rw [classFrom?, hrest]
  rfl

theorem stable_classFrom {n n' : Nat} {b : OpenBracket} {around : List OpenBracket}
    {items : List ClassSet} (hs : s.Extends s') (hle : n ≤ n') :
    Follows Alike (classFrom? n b around items s) (classFrom? n' b around items s') := by
  induction n generalizing n' b around items s s' with
  | zero => exact .of_none
  | succ n ih =>
    obtain ⟨m, rfl⟩ :=
      Nat.exists_eq_add_of_le' (Nat.le_trans (Nat.succ_le_succ (Nat.zero_le n)) hle)
    have hle := Nat.le_of_succ_le_succ hle
    have hskip := hs.skip
    cases hrest : s.skip.rest with
    | nil =>
      rw [classFrom?]
      dsimp only
      rw [hrest]
      exact .of_none
    | cons c cs =>
      have hrest' := hskip.rest_of_cons hrest
      by_cases hopen : c = '['
      · subst hopen
        rw [classFrom_open hrest, classFrom_open hrest', namedClass_append]
        cases namedClass? cs with
        | some named => exact ih (hskip.behind named.2) hle
        | none =>
          refine (openBracket_follows hskip hrest).bind ?_
          rintro ⟨_, _, t⟩ ⟨negated, inner, t'⟩ ⟨rfl, rfl, ht⟩
          exact ih ht hle
      · by_cases hclose : c = ']'
        · subst hclose
          rw [classFrom_close hrest, classFrom_close hrest']
          have hnext := hskip.advance hrest
          cases around with
          | nil => exact .of_some ⟨rfl, hnext⟩
          | cons outer around => exact ih hnext hle
        · rw [classFrom_other hrest hopen hclose, classFrom_other hrest' hopen hclose,
            classOp_extends hskip]
          cases hop : classOp? s.skip with
          | some op =>
            obtain ⟨c, d, rest, hfirst⟩ := rest_of_classOp hop
            have hsecond : s.skip.advance.rest = d :: rest := by
              rw [Cursor.advance, hfirst, List.tail_cons]
            exact ih ((hskip.advance hfirst).advance hsecond) hle
          | none =>
            refine (stable_classItem hskip).bind ?_
            rintro ⟨_, t⟩ ⟨item, t'⟩ ⟨rfl, ht⟩
            exact ih ht hle

theorem stable_class (hs : s.Extends s') (hrest : s.rest = c :: cs) :
    Follows Alike (class? s) (class? s') := by
  refine (openBracket_follows hs hrest).bind ?_
  rintro ⟨_, _, t⟩ ⟨negated, items, t'⟩ ⟨rfl, rfl, ht⟩
  exact stable_classFrom ht (Nat.succ_le_succ ht.length_le)

/-! ## Repetitions -/

theorem count_eq :
    count? s =
      let u : Cursor := { s with rest := s.rest.dropWhile Unicode.isWhiteSpace }
      let digits := Cursor.takeWhile u.rest.length Char.isDigit u
      let blanks := Cursor.takeWhile digits.2.rest.length Unicode.isWhiteSpace digits.2
      let n := digits.1.foldl (fun n c => 10 * n + (c.toNat - 48)) 0
      (if digits.1.isEmpty ∨ Size.largestSmall < n then none else some n, blanks.2) := rfl

theorem count_alike (hs : s.Extends s') : Alike (count? s) (count? s') := by
  have hstart : Cursor.Extends { s with rest := s.rest.dropWhile Unicode.isWhiteSpace }
      { s' with rest := s'.rest.dropWhile Unicode.isWhiteSpace } := by
    rcases hs with rfl | ⟨hnil, rfl⟩
    · left
      dsimp only
      rw [dropWhile_closing Cursor.isWhiteSpace_closing]
    · right
      dsimp only
      rw [hnil]
      exact ⟨rfl, rfl⟩
  obtain ⟨hdigits, hbehind⟩ := Cursor.takeWhile_alike hstart (Nat.le_refl _) hstart.length_le
    (.inl (show Char.isDigit ')' = false by decide))
  obtain ⟨-, hblanks⟩ := Cursor.takeWhile_alike hbehind (Nat.le_refl _) hbehind.length_le
    (.inl Cursor.isWhiteSpace_closing)
  rw [count_eq, count_eq]
  dsimp only at hdigits hblanks ⊢
  rw [hdigits]
  exact ⟨rfl, hblanks⟩

theorem boundsFrom_other {least : Option Nat} (h : ∀ cs, s.rest ≠ '}' :: cs) :
    boundsFrom? least s =
      match least, (count? s).1, (count? s).2.rest with
      | some n, some m, '}' :: _ =>
        if n ≤ m then some ((n, some m), (count? s).2.advanceSkip) else none
      | _, _, _ => none := by
  unfold boundsFrom?
  split
  · rename_i cs hrest
    exact absurd hrest (h cs)
  · rfl

theorem stable_boundsFrom {least : Option Nat} : Stable (boundsFrom? least) := by
  intro s s' hs
  rcases hs.starts_or (show '}' ≠ ')' by decide) with ⟨cs, hrest⟩ | ⟨hother, hother'⟩
  · rw [boundsFrom?, boundsFrom?, hrest, hs.rest_of_cons hrest]
    refine (Follows.refl _).map ?_
    rintro n _ rfl
    exact ⟨rfl, hs.advanceSkip hrest⟩
  · obtain ⟨hmost, hbehind⟩ := count_alike hs
    rw [boundsFrom_other hother, boundsFrom_other hother', hmost]
    split
    · rename_i n m cs hm hclose
      rw [hbehind.rest_of_cons hclose, hm]
      exact .ite (fun _ => .of_some ⟨rfl, hbehind.advanceSkip hclose⟩) fun _ => .of_none
    · exact .of_none

theorem stable_bounds (hs : s.Extends s') (hrest : s.rest = c :: cs) :
    Follows Alike (bounds? s) (bounds? s') := by
  obtain ⟨hleast, hnext⟩ := count_alike (hs.advanceSkip hrest)
  unfold bounds?
  dsimp only
  rw [hleast]
  split
  · rename_i ds hcomma
    rw [hnext.rest_of_cons hcomma]
    exact stable_boundsFrom (hnext.advanceSkip hcomma)
  · rename_i ds hclose
    rw [hnext.rest_of_cons hclose]
    refine (Follows.refl _).map ?_
    rintro n _ rfl
    exact ⟨rfl, hnext.advanceSkip hclose⟩
  · exact .of_none

theorem laziness_plain (h : ∀ cs, s.rest ≠ '?' :: cs) : laziness s = (true, s) := by
  unfold laziness
  split
  · rename_i cs hrest
    exact absurd hrest (h cs)
  · rfl

theorem laziness_alike (hs : s.Extends s') : Alike (laziness s) (laziness s') := by
  rcases hs.starts_or (show '?' ≠ ')' by decide) with ⟨cs, hrest⟩ | ⟨hplain, hplain'⟩
  · rw [laziness, laziness, hrest, hs.rest_of_cons hrest]
    exact ⟨rfl, hs.advance hrest⟩
  · rw [laziness_plain hplain, laziness_plain hplain']
    exact ⟨rfl, hs⟩

end FlowSafety.Pattern
