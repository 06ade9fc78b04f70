import FlowSafety.Json.Parser
import FlowSafety.Json.Printer
import FlowSafety.Proofs.Json.Scalars

/-!
# Reading what was printed

A well-formed value that is laid out over lines is read back as it was. The text comes apart into
the tokens of the value, whatever the indentation, and the tokens give the value.

* `Scans` — a text comes apart into some tokens
* `WellFormed.scans` — a value that is laid out comes apart into its tokens
* `reads` — the tokens of a value give the value
* `WellFormed.parse?_pretty` — a printed value is read back
-/

namespace FlowSafety.Json

/-! ## Well-formed values -/

/-- The scanner takes the content of a string as it stands and stops at the quote behind it. -/
def IsContent (content : String) : Prop :=
  ∀ rest, Token.stringContent (content.toList ++ '"' :: rest) = some (content.toList, rest)

theorem isContent_escape (s : String) : IsContent (escape s) := Token.stringContent_escape s

/-- Numbers and strings are what the scanner takes for one. -/
inductive WellFormed : Json → Prop where
  | null : WellFormed .null
  | bool (value : Bool) : WellFormed (.bool value)
  | number {literal : String} (hnumber : Token.isNumber literal.toList = true)
      (hchars : ∀ c ∈ literal.toList, Token.isNumberChar c = true) : WellFormed (.number literal)
  | string {content : String} (hcontent : IsContent content) : WellFormed (.string content)
  | array {items : List Json} (hitems : ∀ item ∈ items, WellFormed item) :
      WellFormed (.array items)
  | object {members : List (String × Json)} (hnames : ∀ member ∈ members, IsContent member.1)
      (hvalues : ∀ member ∈ members, WellFormed member.2) : WellFormed (.object members)

namespace WellFormed

theorem ofText (s : String) : WellFormed (.ofText s) := .string (isContent_escape s)

theorem ofInt (z : Int) : WellFormed (.ofInt z) :=
  .number (Token.isNumber_numeral z) (Token.isNumberChar_of_mem_numeral z)

theorem ofNat (n : Nat) : WellFormed (.ofNat n) := ofInt n

theorem ofOption {α : Type} {f : α → Json} (hf : ∀ a, WellFormed (f a)) (o : Option α) :
    WellFormed (.ofOption f o) := by
  cases o with
  | none => exact .null
  | some a => exact hf a

theorem ofList {α : Type} {f : α → Json} (hf : ∀ a, WellFormed (f a)) (items : List α) :
    WellFormed (.ofList f items) :=
  .array (List.forall_mem_map.mpr fun a _ => hf a)

end WellFormed

/-! ## Tokens of a value -/

mutual

/-- The tokens that a value is written with. -/
def tokens : Json → List Token
  | .null => [.null]
  | .bool value => [.bool value]
  | .number literal => [.number literal]
  | .string content => [.string content]
  | .array items => .openBracket :: ([.comma].intercalate (itemTokens items) ++ [.closeBracket])
  | .object members =>
    .openBrace :: ([.comma].intercalate (memberTokens members) ++ [.closeBrace])

def itemTokens : List Json → List (List Token)
  | [] => []
  | item :: items => tokens item :: itemTokens items

def memberTokens : List (String × Json) → List (List Token)
  | [] => []
  | (name, value) :: members => (.string name :: .colon :: tokens value) :: memberTokens members

end

/-! ## From the text to the tokens -/

namespace Token

variable {c : Char} {cs rest : List Char} {t : Token}

theorem lex_of_blank (h : isBlank c = true) : lex (c :: cs) = lex cs := by
  rw [lex, if_pos h]

theorem lex_of_next? (hblank : isBlank c = false) (hnext : next? (c :: cs) = some (t, rest)) :
    lex (c :: cs) = (lex rest).map (t :: ·) := by
  rw [lex, if_neg (by simp [hblank])]
  split
  · next hnone => simp [hnext] at hnone
  · next heq => simp_all

theorem lex_mark (h : mark? c = some t) : lex (c :: cs) = (lex cs).map (t :: ·) := by
  unfold mark? at h
  split at h <;> cases h <;> exact lex_of_next? (by decide) (by simp [next?, isNumberChar, mark?])

/-- Before a rest of a kind, the text comes apart into the tokens. -/
def Scans (follow : List Char → Prop) (text : String) (ts : List Token) : Prop :=
  ∀ rest, follow rest → lex (text.toList ++ rest) = (lex rest).map (ts ++ ·)

/-- Any rest: a mark, a string and blanks come to their end by themselves. -/
def Any (_ : List Char) : Prop := True

/-- No number and no word goes on into a text that starts like this. -/
def Ends (cs : List Char) : Prop :=
  ∀ c ∈ cs.head?, isNumberChar c = false ∧ c.isAlpha = false

theorem Scans.append {first second : List Char → Prop} {a b : String} {ts us : List Token}
    (ha : Scans first a ts) (hb : Scans second b us)
    (hfollow : ∀ rest, second rest → first (b.toList ++ rest)) :
    Scans second (a ++ b) (ts ++ us) := by
  intro rest hrest
  rw [String.toList_append, List.append_assoc, ha _ (hfollow rest hrest), hb rest hrest,
    Option.map_map]
  simp [Function.comp_def]

theorem Scans.of_any {text : String} {ts : List Token} {follow : List Char → Prop}
    (h : Scans Any text ts) : Scans follow text ts :=
  fun rest _ => h rest trivial

theorem takeWhile_of_ends {p : Char → Bool} (hcs : ∀ c ∈ cs, p c = true)
    (hrest : ∀ c ∈ rest.head?, p c = false) : (cs ++ rest).takeWhile p = cs := by
  rw [List.takeWhile_append_of_pos hcs]
  cases rest with
  | nil => simp
  | cons c rest => simp [hrest c rfl]

theorem dropWhile_of_ends {p : Char → Bool} (hcs : ∀ c ∈ cs, p c = true)
    (hrest : ∀ c ∈ rest.head?, p c = false) : (cs ++ rest).dropWhile p = rest := by
  rw [List.dropWhile_append_of_pos hcs]
  cases rest with
  | nil => simp
  | cons c rest => simp [hrest c rfl]

theorem scans_mark {text : String} (htext : text.toList = [c]) (h : mark? c = some t) :
    Scans Any text [t] := by
  intro rest _
  rw [htext]
  exact lex_mark h

theorem scans_quoteContent {content : String} (h : IsContent content) :
    Scans Any (quoteContent content) [.string content] := by
  intro rest _
  have hlist : (quoteContent content).toList ++ rest =
      '"' :: (content.toList ++ '"' :: rest) := by simp [quoteContent]
  rw [hlist]
  exact lex_of_next? (by decide) (by simp [next?, h rest])

/-- A number starts with a digit or a sign. -/
theorem head_of_isNumber (h : isNumber (c :: cs) = true) : c.isDigit = true ∨ c = '-' := by
  by_cases hsign : c = '-'
  · exact Or.inr hsign
  · have hunsigned : isUnsigned (c :: cs) = true := by simpa [isNumber, hsign] using h
    by_cases hzero : c = '0'
    · exact Or.inl (hzero ▸ by decide)
    · simp only [isUnsigned, Bool.and_eq_true] at hunsigned
      exact Or.inl hunsigned.1

theorem scans_number {literal : String} (hnumber : isNumber literal.toList = true)
    (hchars : ∀ c ∈ literal.toList, isNumberChar c = true) :
    Scans Ends literal [.number literal] := by
  intro rest hrest
  rw [← String.ofList_toList (s := literal), String.toList_ofList]
  cases hlist : literal.toList with
  | nil =>
    rw [hlist] at hnumber
    contradiction
  | cons c cs =>
    rw [hlist] at hnumber hchars
    have hne (d : Char) (hd : d.isDigit = false ∧ d ≠ '-') : c ≠ d := by
      rintro rfl
      rcases head_of_isNumber hnumber with hdigit | hsign
      · simp [hdigit] at hd
      · exact hd.2 hsign
    have hblank : isBlank c = false := by
      simp [isBlank, hne ' ' (by decide), hne '\t' (by decide), hne '\n' (by decide),
        hne '\r' (by decide)]
    have hcs : ∀ d ∈ cs, isNumberChar d = true := fun d hd => hchars d (List.mem_cons_of_mem c hd)
    have hends : ∀ d ∈ rest.head?, isNumberChar d = false := fun d hd => (hrest d hd).1
    refine lex_of_next? hblank ?_
    simp [next?, hne '"' (by decide), hne 'e' (by decide), hne 'E' (by decide),
      hchars c List.mem_cons_self, takeWhile_of_ends hcs hends, dropWhile_of_ends hcs hends,
      hnumber]

theorem scans_word {text : String} (h : word? text.toList = some t) : Scans Ends text [t] := by
  intro rest hrest
  have hends : ∀ d ∈ rest.head?, d.isAlpha = false := fun d hd => (hrest d hd).2
  have hnext {c : Char} {cs : List Char} (hc : isNumberChar c = false) (hquote : c ≠ '"')
      (halpha : (c :: cs).all Char.isAlpha = true) (h : word? (c :: cs) = some t) :
      next? (c :: (cs ++ rest)) = some (t, rest) := by
    obtain ⟨hhead, hcs⟩ := List.forall_mem_cons.mp (List.all_eq_true.mp halpha)
    simp [next?, hc, hquote, hhead, takeWhile_of_ends hcs hends, dropWhile_of_ends hcs hends, h]
  have hwords : text.toList = ['n', 'u', 'l', 'l'] ∨ text.toList = ['t', 'r', 'u', 'e'] ∨
      text.toList = ['f', 'a', 'l', 's', 'e'] := by
    unfold word? at h
    split at h
    · exact Or.inl ‹_›
    · split at h
      · exact Or.inr (Or.inl ‹_›)
      · split at h
        · exact Or.inr (Or.inr ‹_›)
        · contradiction
  rcases hwords with htext | htext | htext <;>
    · rw [htext] at h ⊢
      exact lex_of_next? (by decide) (hnext (by decide) (by decide) (by decide) h)

/-! ### Layout -/

theorem toList_lineStart (level : Nat) :
    (lineStart level).toList = '\n' :: List.replicate (2 * level) ' ' := by
  simp [lineStart]

theorem scans_lineStart (level : Nat) : Scans Any (lineStart level) [] := by
  intro rest _
  have hblanks (k : Nat) : lex (List.replicate k ' ' ++ rest) = lex rest := by
    induction k with
    | zero => rfl
    | succ k ih => rw [List.replicate_succ, List.cons_append, lex_of_blank (by decide), ih]
  rw [toList_lineStart, List.cons_append, lex_of_blank (by decide), hblanks]
  simp

/-- A line break ends a token. -/
theorem ends_lineStart (level : Nat) (text : String) (rest : List Char) :
    Ends ((lineStart level ++ text).toList ++ rest) := by
  intro c hc
  rw [String.toList_append, toList_lineStart] at hc
  obtain rfl : '\n' = c := by simpa using hc
  decide

/-- A comma ends a token. -/
theorem ends_comma (text : String) (rest : List Char) :
    Ends (("," ++ text).toList ++ rest) := by
  intro c hc
  obtain rfl : ',' = c := by simpa using hc
  decide

/-- Parts on lines of their own come apart into their tokens, with a comma between two. -/
theorem scans_intercalate {α : Type} {text : α → String} {ts : α → List Token} (level : Nat)
    {items : List α} (hne : items ≠ []) (h : ∀ item ∈ items, Scans Ends (text item) (ts item)) :
    Scans Ends (("," ++ lineStart level).intercalate (items.map text))
      ([.comma].intercalate (items.map ts)) := by
  induction items with
  | nil => contradiction
  | cons item items ih =>
    obtain ⟨hitem, hitems⟩ := List.forall_mem_cons.mp h
    cases items with
    | nil => simpa using hitem
    | cons next items =>
      -- the comma ends the item before it, and the line break behind it stands for nothing
      have hlater := ih (List.cons_ne_nil next items) hitems
      have hnext := (scans_lineStart level).append hlater fun _ _ => trivial
      have hcomma : Scans Any "," [.comma] := scans_mark rfl rfl
      simp only [List.map_cons, String.intercalate_cons_cons, List.intercalate_cons_cons,
        String.append_assoc, List.append_assoc]
      exact hitem.append (hcomma.append hnext fun _ _ => trivial) fun rest _ => ends_comma _ rest

theorem scans_layOut {α : Type} {text : α → String} {ts : α → List Token} (level : Nat)
    {items : List α} {opening closing : String} {o c : Char} {t u : Token}
    (hopening : opening.toList = [o]) (ho : mark? o = some t)
    (hclosing : closing.toList = [c]) (hc : mark? c = some u)
    (h : ∀ item ∈ items, Scans Ends (text item) (ts item)) :
    Scans Any (layOut level opening closing (items.map text))
      (t :: ([.comma].intercalate (items.map ts) ++ [u])) := by
  have hopen := scans_mark hopening ho
  have hclose := scans_mark hclosing hc
  unfold layOut
  cases items with
  | nil => exact hopen.append hclose fun _ _ => trivial
  | cons item items =>
    have hparts := scans_intercalate (level + 1) (List.cons_ne_nil item items) h
    have hend := (scans_lineStart level).append hclose fun _ _ => trivial
    have hstart := (hopen.append (scans_lineStart (level + 1)) fun _ _ => trivial).append hparts
      fun _ _ => trivial
    have hall := hstart.append hend fun rest _ => ends_lineStart level closing rest
    simpa [String.append_assoc] using hall

end Token

theorem prettyItems_eq_map (level : Nat) (items : List Json) :
    prettyItems level items = items.map (prettyAt level) := by
  induction items with
  | nil => rfl
  | cons item items ih => rw [prettyItems, ih, List.map_cons]

theorem prettyMembers_eq_map (level : Nat) (members : List (String × Json)) :
    prettyMembers level members =
      members.map fun m => quoteContent m.1 ++ ": " ++ prettyAt level m.2 := by
  induction members with
  | nil => rfl
  | cons member members ih => rw [prettyMembers, ih, List.map_cons]

theorem itemTokens_eq_map (items : List Json) : itemTokens items = items.map tokens := by
  induction items with
  | nil => rfl
  | cons item items ih => rw [itemTokens, ih, List.map_cons]

theorem memberTokens_eq_map (members : List (String × Json)) :
    memberTokens members = members.map fun m => .string m.1 :: .colon :: tokens m.2 := by
  induction members with
  | nil => rfl
  | cons member members ih => rw [memberTokens, ih, List.map_cons]

open Token in
/-- A value that is laid out comes apart into its tokens. -/
theorem WellFormed.scans {j : Json} (h : WellFormed j) (level : Nat) :
    Scans Ends (prettyAt level j) (tokens j) := by
  induction h generalizing level with
  | null =>
    show Scans Ends "null" [.null]
    exact scans_word rfl
  | bool value =>
    cases value with
    | false =>
      show Scans Ends "false" [.bool false]
      exact scans_word rfl
    | true =>
      show Scans Ends "true" [.bool true]
      exact scans_word rfl
  | number hnumber hchars => exact scans_number hnumber hchars
  | string hcontent => exact (scans_quoteContent hcontent).of_any
  | array _ ih =>
    rw [prettyAt, tokens, prettyItems_eq_map, itemTokens_eq_map]
    exact (scans_layOut level rfl rfl rfl rfl fun item hitem => ih item hitem (level + 1)).of_any
  | object hnames _ ih =>
    rw [prettyAt, tokens, prettyMembers_eq_map, memberTokens_eq_map]
    refine (scans_layOut level rfl rfl rfl rfl fun member hmember => ?_).of_any
    have hname := scans_quoteContent (hnames member hmember)
    have hcolon : Scans Any ": " [.colon] := by
      intro rest _
      show lex (':' :: ' ' :: rest) = _
      rw [lex_mark (t := .colon) rfl, lex_of_blank (by decide)]
      rfl
    exact (hname.append hcolon fun _ _ => trivial).append (ih member hmember (level + 1))
      fun _ _ => trivial

/-! ## From the tokens to the value -/

/-- No value starts with a closing bracket. -/
theorem tokens_append_ne_closeBracket (j : Json) (ts us : List Token) :
    tokens j ++ ts ≠ .closeBracket :: us := by
  cases j <;> simp [tokens]

theorem intercalate_append_ne_closeBracket (item : Json) (items : List Json)
    (ts us : List Token) :
    [.comma].intercalate ((item :: items).map tokens) ++ ts ≠ .closeBracket :: us := by
  cases items with
  | nil =>
    rw [List.map_cons, List.map_nil, List.intercalate_singleton]
    exact tokens_append_ne_closeBracket item ts us
  | cons next items =>
    rw [List.map_cons, List.map_cons, List.intercalate_cons_cons, List.append_assoc,
      List.append_assoc]
    exact tokens_append_ne_closeBracket item _ us

section Depth

variable {depth : Nat}

/-- The depth suffices for a value of so many tokens, and for all of fewer. -/
def Reads (depth : Nat) : Prop :=
  ∀ (j : Json) (rest : List Token), (tokens j).length ≤ depth →
    value? depth (tokens j ++ rest) = some (j, rest)

theorem items?_tokens (hreads : ∀ d < depth, Reads d) {items : List Json} (hne : items ≠ [])
    (hdepth : ([.comma].intercalate (items.map tokens)).length < depth) (rest : List Token) :
    items? depth ([.comma].intercalate (items.map tokens) ++ .closeBracket :: rest) =
      some (items, rest) := by
  induction items generalizing depth with
  | nil => contradiction
  | cons item items ih =>
    cases depth with
    | zero => contradiction
    | succ depth =>
      have hread := hreads depth (Nat.lt_succ_self depth)
      cases items with
      | nil =>
        simp only [List.map_cons, List.map_nil, List.intercalate_singleton] at hdepth ⊢
        simp [items?, hread item _ (Nat.le_of_lt_succ hdepth)]
      | cons next items =>
        simp only [List.map_cons, List.intercalate_cons_cons, List.append_assoc,
          List.length_append, List.length_cons, List.length_nil] at hdepth ⊢
        have hlater := ih (fun d hd => hreads d (Nat.lt_succ_of_lt hd))
          (List.cons_ne_nil next items) (by simp only [List.map_cons]; omega)
        simp only [List.map_cons] at hlater
        simp [items?, hread item _ (by omega), hlater]

theorem members?_tokens (hreads : ∀ d < depth, Reads d) {members : List (String × Json)}
    (hne : members ≠ [])
    (hdepth : ([.comma].intercalate (memberTokens members)).length < depth) (rest : List Token) :
    members? depth ([.comma].intercalate (memberTokens members) ++ .closeBrace :: rest) =
      some (members, rest) := by
  induction members generalizing depth with
  | nil => contradiction
  | cons member members ih =>
    cases depth with
    | zero => contradiction
    | succ depth =>
      have hread := hreads depth (Nat.lt_succ_self depth)
      cases members with
      | nil =>
        simp only [memberTokens, List.intercalate_singleton, List.length_cons] at hdepth ⊢
        simp [members?, hread member.2 _ (by omega)]
      | cons next members =>
        simp only [memberTokens, List.intercalate_cons_cons, List.append_assoc,
          List.length_append, List.length_cons, List.length_nil] at hdepth ⊢
        have hlater := ih (fun d hd => hreads d (Nat.lt_succ_of_lt hd))
          (List.cons_ne_nil next members) (by simp only [memberTokens]; omega)
        simpa [members?, memberTokens, hread member.2 _ (by omega)] using hlater

/-- The tokens of a value give the value. Each level down uses up a bracket, and each item the
tokens before it. -/
theorem reads (depth : Nat) : Reads depth := by
  induction depth using Nat.strongRecOn with
  | ind depth ih =>
    intro j rest hdepth
    cases j with
    | null => simp [tokens, value?]
    | bool value => simp [tokens, value?]
    | number literal => simp [tokens, value?]
    | string content => simp [tokens, value?]
    | array items =>
      rw [tokens, itemTokens_eq_map] at hdepth ⊢
      cases items with
      | nil => simp [value?]
      | cons item items =>
        cases depth with
        | zero => simp at hdepth
        | succ depth =>
          simp only [List.length_cons, List.length_append] at hdepth
          have hitems := items?_tokens (fun d hd => ih d (Nat.lt_succ_of_lt hd))
            (List.cons_ne_nil item items) (by omega) rest
          -- an array with items does not take the rule for the one without
          rw [List.cons_append, List.append_assoc, List.singleton_append, value?, hitems]
          · rfl
          · exact fun ts => intercalate_append_ne_closeBracket item items _ ts
    | object members =>
      rw [tokens] at hdepth ⊢
      cases members with
      | nil => simp [memberTokens, value?]
      | cons member members =>
        cases depth with
        | zero => simp at hdepth
        | succ depth =>
          simp only [List.length_cons, List.length_append] at hdepth
          have hmembers := members?_tokens (fun d hd => ih d (Nat.lt_succ_of_lt hd))
            (List.cons_ne_nil member members) (by omega) rest
          rw [List.cons_append, List.append_assoc, List.singleton_append, value?, hmembers]
          · rfl
          · cases members <;> simp [memberTokens]

end Depth

/-- A printed value is read back. -/
theorem WellFormed.parse?_pretty {j : Json} (h : WellFormed j) : parse? j.pretty = some j := by
  have hlex : Token.lex j.pretty.toList = some (tokens j) := by
    have hscan := h.scans 0 [] (by simp [Token.Ends])
    simpa [Token.lex, pretty] using hscan
  have hvalue := reads ((tokens j).length + 1) j [] (Nat.le_succ _)
  rw [List.append_nil] at hvalue
  simp [parse?, hlex, hvalue]

end FlowSafety.Json
