import FlowSafety.Json.Basic

/-!
# JSON tokens

The tokens of a JSON text. Between tokens only blanks, tabs and line ends may stand. A string runs
to the next quote that no backslash escapes, and holds no control character; a number and a word are
the longest runs of their characters.
-/

namespace FlowSafety.Json

/-- A token of a JSON text. -/
inductive Token where
  | openBrace
  | closeBrace
  | openBracket
  | closeBracket
  | colon
  | comma
  | null
  | bool (value : Bool)
  | number (literal : String)
  | string (content : String)
deriving DecidableEq

namespace Token

def isBlank (c : Char) : Bool := c = ' ' || c = '\t' || c = '\n' || c = '\r'

/-! ## Strings -/

def isHex (c : Char) : Bool := (hexValue? c).isSome

/-- The content of a string after its opening quote, and what follows the closing one. -/
def stringContent : List Char → Option (List Char × List Char)
  | [] => none
  | '"' :: rest => some ([], rest)
  | '\\' :: 'u' :: a :: b :: c :: d :: rest =>
    if isHex a && isHex b && isHex c && isHex d then
      (stringContent rest).map fun r => ('\\' :: 'u' :: a :: b :: c :: d :: r.1, r.2)
    else none
  | '\\' :: c :: rest =>
    if (simpleEscape? c).isSome then (stringContent rest).map fun r => ('\\' :: c :: r.1, r.2)
    else none
  | c :: rest =>
    if c = '\\' || c.toNat < 32 then none
    else (stringContent rest).map fun r => (c :: r.1, r.2)

theorem length_of_stringContent {cs content rest : List Char}
    (h : stringContent cs = some (content, rest)) : rest.length < cs.length := by
  fun_induction stringContent cs generalizing content rest with
  | case1 => simp at h
  | case2 => simp_all
  | case3 a b c d rest' _ ih =>
    obtain ⟨r, hr, heq⟩ := Option.map_eq_some_iff.1 h
    have := ih (by rw [hr])
    simp only [Prod.mk.injEq] at heq
    simp only [List.length_cons, ← heq.2]
    omega
  | case4 => simp at h
  | case5 c rest' _ _ ih =>
    obtain ⟨r, hr, heq⟩ := Option.map_eq_some_iff.1 h
    have := ih (by rw [hr])
    simp only [Prod.mk.injEq] at heq
    simp only [List.length_cons, ← heq.2]
    omega
  | case6 => simp at h
  | case7 => simp at h
  | case8 c rest' _ _ _ _ ih =>
    obtain ⟨r, hr, heq⟩ := Option.map_eq_some_iff.1 h
    have := ih (by rw [hr])
    simp only [Prod.mk.injEq] at heq
    simp only [List.length_cons, ← heq.2]
    omega

/-! ## Numbers -/

def isNumberChar (c : Char) : Bool :=
  c.isDigit || c = '-' || c = '+' || c = '.' || c = 'e' || c = 'E'

/-- One digit or more, and nothing else. -/
def isDigits (cs : List Char) : Bool := !cs.isEmpty && cs.all Char.isDigit

/-- The digits of an exponent, after an optional sign. -/
def isSignedDigits : List Char → Bool
  | '+' :: cs => isDigits cs
  | '-' :: cs => isDigits cs
  | cs => isDigits cs

/-- What may follow the integer part: a fraction, an exponent, both or neither. -/
def isFraction (cs : List Char) : Bool :=
  match cs with
  | [] => true
  | '.' :: cs =>
    let rest := cs.dropWhile Char.isDigit
    !(cs.takeWhile Char.isDigit).isEmpty && (rest.isEmpty ||
      match rest with
      | c :: cs => (c = 'e' || c = 'E') && isSignedDigits cs
      | [] => false)
  | c :: cs => (c = 'e' || c = 'E') && isSignedDigits cs

/-- A number without its sign: no digit stands before a zero that leads. -/
def isUnsigned (cs : List Char) : Bool :=
  match cs with
  | '0' :: cs => isFraction cs
  | c :: cs => c.isDigit && isFraction (cs.dropWhile Char.isDigit)
  | [] => false

/-- Whether a run of characters is a number. -/
def isNumber : List Char → Bool
  | '-' :: cs => isUnsigned cs
  | cs => isUnsigned cs

/-! ## Words and marks -/

def word? (cs : List Char) : Option Token :=
  if cs = ['n', 'u', 'l', 'l'] then some .null
  else if cs = ['t', 'r', 'u', 'e'] then some (.bool true)
  else if cs = ['f', 'a', 'l', 's', 'e'] then some (.bool false)
  else none

def mark? (c : Char) : Option Token :=
  match c with
  | '{' => some .openBrace
  | '}' => some .closeBrace
  | '[' => some .openBracket
  | ']' => some .closeBracket
  | ':' => some .colon
  | ',' => some .comma
  | _ => none

/-! ## Texts -/

/-- The token at the front of a text that starts with no blank, and the text behind it. -/
def next? : List Char → Option (Token × List Char)
  | [] => none
  | c :: cs =>
    if c = '"' then (stringContent cs).map fun r => (.string (String.ofList r.1), r.2)
    else if isNumberChar c && c ≠ 'e' && c ≠ 'E' then
      let literal := c :: cs.takeWhile isNumberChar
      if isNumber literal then some (.number (String.ofList literal), cs.dropWhile isNumberChar)
      else none
    else if c.isAlpha then
      (word? (c :: cs.takeWhile Char.isAlpha)).map fun t => (t, cs.dropWhile Char.isAlpha)
    else (mark? c).map fun t => (t, cs)

theorem length_of_next? {cs rest : List Char} {t : Token} (h : next? cs = some (t, rest)) :
    rest.length < cs.length := by
  unfold next? at h
  split at h
  · simp at h
  · rename_i c cs
    split at h
    · obtain ⟨r, hr, heq⟩ := Option.map_eq_some_iff.1 h
      have := length_of_stringContent (by rw [hr])
      simp only [Prod.mk.injEq] at heq
      simp only [List.length_cons, ← heq.2]
      omega
    · split at h
      · simp only [] at h
        split at h
        · simp only [Option.some.injEq, Prod.mk.injEq] at h
          have := (List.dropWhile_suffix isNumberChar (l := cs)).length_le
          simp only [List.length_cons, ← h.2]
          omega
        · simp at h
      · split at h
        · obtain ⟨r, _, heq⟩ := Option.map_eq_some_iff.1 h
          have := (List.dropWhile_suffix Char.isAlpha (l := cs)).length_le
          simp only [Prod.mk.injEq] at heq
          simp only [List.length_cons, ← heq.2]
          omega
        · obtain ⟨r, _, heq⟩ := Option.map_eq_some_iff.1 h
          simp only [Prod.mk.injEq] at heq
          simp [← heq.2]

/-- The tokens of a text. -/
def lex : List Char → Option (List Token)
  | [] => some []
  | c :: cs =>
    if isBlank c then lex cs
    else
      match _h : next? (c :: cs) with
      | none => none
      | some (t, rest) => (lex rest).map (t :: ·)
termination_by cs => cs.length
decreasing_by
  · simp
  · exact length_of_next? _h

end Token

end FlowSafety.Json
