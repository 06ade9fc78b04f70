import FlowSafety.Catalogue.Basic
import FlowSafety.Proofs.Charset.CharClass
import Mathlib.Data.List.Forall2

/-!
# Marked texts

The texts of a run of the program, with a mark on every character that an attacker may have chosen.
What a transform makes of a marked text is a relation: for an escape and a case mapping character by
character, for a concatenation argument by argument.

* `Marked` — a character and its mark
* `Escaped`, `CaseMapped`, `PartOf` — what is written for a character or an argument
* `TextEffect.Yields` — the texts that a transform may return
-/

namespace FlowSafety

/-- A character of a text in a run. -/
structure Marked where
  char : Char
  /-- An attacker may have chosen it. -/
  attacker : Bool
deriving DecidableEq, Repr

namespace Marked

/-- Characters that an attacker may have chosen. -/
def chosen (cs : List Char) : List Marked := cs.map fun c => ⟨c, true⟩

/-- Characters that a developer wrote. -/
def written (cs : List Char) : List Marked := cs.map fun c => ⟨c, false⟩

theorem attacker_of_mem_written {cs : List Char} {m : Marked} (h : m ∈ written cs) :
    m.attacker = false := by
  obtain ⟨c, -, rfl⟩ := List.mem_map.mp h
  rfl

theorem char_mem_of_mem_chosen {cs : List Char} {m : Marked} (h : m ∈ chosen cs) :
    m.char ∈ cs := by
  obtain ⟨c, hc, rfl⟩ := List.mem_map.mp h
  exact hc

end Marked

/-! ## Characters -/

/-- What an escape writes for a character: a replacement of its own, or the character, which an
attacker may have chosen only if the context does not neutralize it. -/
inductive Escaped (context : EscapeContext) (m : Marked) : List Marked → Prop
  | replaced {cs : List Char} : Escaped context m (Marked.written cs)
  | kept : (m.attacker = true → context.neutralized.contains m.char = false) →
      Escaped context m [m]

/-- What a case mapping writes for a character, all of it with the same mark. -/
inductive CaseMapped (lower : Bool) (m : Marked) : List Marked → Prop
  | image {cs : List Char} : CharClass.CaseImage lower m.char cs →
      CaseMapped lower m (cs.map fun c => ⟨c, m.attacker⟩)

/-- The characters that a digest is written in. -/
def DigestEncoding.alphabet : DigestEncoding → String
  | .hex => "0123456789abcdefABCDEF"
  | .base64 => "ABCDEFGHIJKLMNOPQRSTUVWXYZabcdefghijklmnopqrstuvwxyz0123456789+/=-_"

/-! ## Arguments -/

namespace Argument

def int? : Argument → Option Int64
  | .int v => some v
  | _ => none

/-- The arguments with the flowing text in front, unless it has a place of its own. -/
def placed (arguments : List Argument) : List Argument :=
  if .current ∈ arguments then arguments else .current :: arguments

/-- The number of characters that a mask is asked to keep. -/
def keptCount (preset : Nat) (arguments : List Argument) : Nat :=
  match arguments.filterMap int? with
  | v :: _ => if 0 ≤ v.toInt then v.toInt.toNat else preset
  | [] => preset

end Argument

/-- What a concatenation takes from an argument: any part of the flowing text, since it may be cut,
the text that a developer wrote, or the result of an earlier step. -/
inductive PartOf (results : List (List Marked)) (x : List Marked) : Argument → List Marked → Prop
  | current {y : List Marked} : y <:+: x → PartOf results x .current y
  | literal {s : String} : PartOf results x (.literal s) (Marked.written s.toList)
  | int {v : Int64} : PartOf results x (.int v) []
  | step {target : Nat} {y : List Marked} : results[target]? = some y →
      PartOf results x (.step target) y

/-! ## Transforms -/

/-- The texts that a transform may return for the flowing text, given the results of the steps so
far. There is no rule for allow lists, numerals and effects that are given as a function. -/
inductive TextEffect.Yields (results : List (List Marked)) (arguments : List Argument) :
    TextEffect → List Marked → List Marked → Prop
  | escape {context : EscapeContext} {x : List Marked} {parts : List (List Marked)} :
      List.Forall₂ (Escaped context) x parts →
      Yields results arguments (.escape context) x parts.flatten
  | caseMap {lower : Bool} {x : List Marked} {parts : List (List Marked)} :
      List.Forall₂ (CaseMapped lower) x parts →
      Yields results arguments (.caseMap lower) x parts.flatten
  | digitFilter {x : List Marked} :
      Yields results arguments .digitFilter x (x.filter fun m => m.char.isDigit)
  | mask {preset : Nat} {filler : Char} {n : Nat} {x y : List Marked} :
      y <:+ x → y.length ≤ Argument.keptCount preset arguments →
      Yields results arguments (.mask preset filler) x
        (Marked.chosen (List.replicate n filler) ++ y)
  | digest {encoding : DigestEncoding} {length : Nat} {x : List Marked} {cs : List Char} :
      (∀ c ∈ cs, c ∈ encoding.alphabet.toList) →
      Yields results arguments (.digest encoding length) x (Marked.chosen cs)
  | passThrough {truncate : Option Nat} {x y : List Marked} {parts : List (List Marked)} :
      List.Forall₂ (PartOf results x) (Argument.placed arguments) parts → y <:+: parts.flatten →
      Yields results arguments (.passThrough truncate) x y

end FlowSafety
