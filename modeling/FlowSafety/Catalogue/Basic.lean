import FlowSafety.Path.Basic

/-!
# Catalogues

A catalogue holds the transforms that are known by name, each with its effect on what is known about
a value. The analysis never looks at a name as such: it looks it up and applies the effect.

Names are kept in ascending order, each once, and every transform also stores its own.
`Catalogue.enter` only ever adds a name, and only with an effect that fits.
-/

namespace FlowSafety

/-! ## Effects -/

/-- The alphabet that a digest is written in. -/
inductive DigestEncoding where
  | hex
  | base64
deriving DecidableEq, Repr

/-- The effect of a numeric transform. -/
inductive NumericEffect where
  /-- The transform is another name of an operator. -/
  | builtin (operator : Operator)
  /-- A function of the intervals of the operands. -/
  | custom (f : List Interval → Interval)

/-- The effect of a string transform. -/
inductive TextEffect where
  /-- The whole text is escaped for a context. -/
  | escape (context : EscapeContext)
  /-- The text is mapped to one of a fixed set. -/
  | allowList (values : TextSet)
  /-- A number is written in a radix. -/
  | numericFormat (radix : Nat)
  /-- Only the digits are kept. -/
  | digitFilter
  /-- All but the last characters are replaced. -/
  | mask (kept : Nat) (filler : Char)
  /-- A digest of fixed length. -/
  | digest (encoding : DigestEncoding) (length : Nat)
  /-- Cutting and joining, which leave characters alone. -/
  | passThrough (truncate : Option Nat)
  /-- A mapping of every character to lower or upper case. -/
  | caseMap (lower : Bool)
  /-- A function of the guarantee of the text. -/
  | custom (f : TextGuarantee → TextGuarantee)

namespace TextEffect

/-- Whether the effect establishes a guarantee of its own. -/
def isSanitizing : TextEffect → Bool
  | .passThrough _ => false
  | .caseMap _ => false
  | _ => true

/-- Whether the result no longer shows the text. -/
def isRedacting : TextEffect → Bool
  | .mask .. => true
  | .digest .. => true
  | _ => false

end TextEffect

/-- The effect of a transform. -/
inductive Effect where
  | numeric (effect : NumericEffect)
  | text (effect : TextEffect)

namespace Effect

/-- The kind of value that the effect applies to. -/
def kind : Effect → ValueKind
  | .numeric _ => .numeric
  | .text _ => .string

end Effect

/-! ## Catalogues -/

/-- A transform, with the name that it was entered under. -/
structure Transform where
  name : String
  effect : Effect

/-- The transforms that are known by name, in the order of their names. Nothing here ties the name
that a transform stores to the one that it stands under; `Catalogue.insert` gives it both. -/
structure Catalogue where
  entries : List (String × Transform)

namespace Catalogue

def empty : Catalogue := ⟨[]⟩

def isEmpty (c : Catalogue) : Bool := c.entries.isEmpty

def size (c : Catalogue) : Nat := c.entries.length

/-- The names in ascending order. -/
def names (c : Catalogue) : List String := c.entries.map (·.1)

/-- The transform under a name. -/
def transform? (c : Catalogue) (name : String) : Option Transform := c.entries.lookup name

/-- The effect of the transform under a name. -/
def get? (c : Catalogue) (name : String) : Option Effect := (c.transform? name).map (·.effect)

def contains (c : Catalogue) (name : String) : Bool := (c.transform? name).isSome

/-- Put an entry in its place; one with the same name is replaced. -/
def insertEntry (name : String) (t : Transform) :
    List (String × Transform) → List (String × Transform)
  | [] => [(name, t)]
  | (other, u) :: rest =>
    if Text.before name other then (name, t) :: (other, u) :: rest
    else if Text.before other name then (other, u) :: insertEntry name t rest
    else (name, t) :: rest

/-- Add a transform, or replace it. -/
def insert (c : Catalogue) (name : String) (effect : Effect) : Catalogue :=
  ⟨insertEntry name ⟨name, effect⟩ c.entries⟩

/-- The catalogue of some transforms. Of several with a name the last one counts. -/
def ofList (entries : List (String × Effect)) : Catalogue :=
  entries.foldl (fun c entry => c.insert entry.1 entry.2) empty

theorem lookup_cons {α : Type} (entry : String × α) (entries : List (String × α)) (name : String) :
    (entry :: entries).lookup name =
      if name = entry.1 then some entry.2 else entries.lookup name := by
  by_cases h : name = entry.1
  · rw [if_pos h, h]
    exact List.lookup_cons_self
  · rw [if_neg h, List.lookup_cons, beq_false_of_ne h]

theorem lookup_insertEntry (name other : String) (t : Transform)
    (entries : List (String × Transform)) :
    (insertEntry name t entries).lookup other =
      if other = name then some t else entries.lookup other := by
  induction entries with
  | nil => exact lookup_cons (name, t) [] other
  | cons entry entries ih =>
    obtain ⟨first, u⟩ := entry
    unfold insertEntry
    split
    · exact lookup_cons (name, t) _ other
    · next hbefore =>
      split
      · next hfirst =>
        have hne : first ≠ name := by
          rintro rfl
          rw [Text.before_irrefl] at hfirst
          contradiction
        rw [lookup_cons, lookup_cons, ih]
        grind
      · next hafter =>
        obtain rfl := Text.eq_of_not_before (Bool.not_eq_true _ ▸ hbefore)
          (Bool.not_eq_true _ ▸ hafter)
        rw [lookup_cons, lookup_cons]
        grind

theorem get?_empty (name : String) : empty.get? name = none := rfl

theorem contains_iff (c : Catalogue) (name : String) :
    c.contains name = true ↔ c.get? name ≠ none := by
  rw [contains, get?, Option.isSome_iff_ne_none, ne_eq, ne_eq, Option.map_eq_none_iff]

theorem get?_insert (c : Catalogue) (name other : String) (effect : Effect) :
    (c.insert name effect).get? other = if other = name then some effect else c.get? other := by
  unfold get? transform? insert
  rw [lookup_insertEntry]
  split <;> rfl

theorem get?_foldl_insert (entries : List (String × Effect)) (c : Catalogue) (name : String) :
    (entries.foldl (fun c entry => c.insert entry.1 entry.2) c).get? name =
      (entries.reverse.lookup name).or (c.get? name) := by
  induction entries generalizing c with
  | nil => rfl
  | cons entry entries ih =>
    rw [List.foldl_cons, ih, get?_insert, List.reverse_cons, List.lookup_append, Option.or_assoc,
      lookup_cons]
    congr 1
    split <;> rfl

theorem get?_ofList (entries : List (String × Effect)) (name : String) :
    (ofList entries).get? name = entries.reverse.lookup name := by
  rw [ofList, get?_foldl_insert, get?_empty, Option.or_none]

/-- What is wrong with an effect under a name, if anything is. -/
def effectFault? (name : String) : Effect → Option SetupFault
  | .numeric (.builtin (.call target)) => some (.aliasOfCall name target)
  | .text (.numericFormat radix) =>
    if radix = 10 ∨ radix = 16 then none else some (.unsupportedRadix name radix)
  | _ => none

/-- Enter a transform. The name has to be new, and the effect has to apply to the declared kind of
value, name an operator rather than a call, and write numbers in radix 10 or 16. -/
def enter (name : String) (declared : ValueKind) (effect : Effect) : Action Catalogue Unit := do
  if name.isEmpty then throw (.setup .emptyName)
  if (← get).contains name then throw (.setup (.nameTaken name))
  if effect.kind ≠ declared then throw (.setup (.wrongKind name declared effect.kind))
  if let some cause := effectFault? name effect then throw (.setup cause)
  modify fun c => c.insert name effect

/-- The catalogue with a transform that is registered in it. -/
def register (c : Catalogue) (name : String) (declared : ValueKind) (effect : Effect) :
    Except Fault Catalogue :=
  ((enter name declared effect).answer c).map Prod.snd

/-- The catalogue, if anything is registered in it. -/
def build (c : Catalogue) : Except Fault Catalogue :=
  if c.isEmpty then .error (.setup .emptyCatalogue) else .ok c

/-- Make the catalogue the shared one, which is the given one if there is any already. -/
def install (shared : Option Catalogue) (c : Catalogue) : Except Fault Catalogue := do
  let c ← c.build
  match shared with
  | some _ => throw (.setup .catalogueInstalled)
  | none => return c

end Catalogue

end FlowSafety
