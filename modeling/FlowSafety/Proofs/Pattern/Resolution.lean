import FlowSafety.Pattern.Resolve

/-!
# How patterns resolve

One rule for each kind of class, by which it stands for a set, and one for each kind of pattern, by
which it becomes its simple form. What holds of all classes and patterns that resolve is proved by
induction over these rules; how the answers are put together is looked at here only.

* `Denotes`, `Resolves` — the rules
* `classSet_eq_some_iff`, `resolve_eq_some_iff` — they yield what `classSet?` and `resolve?` answer
-/

namespace FlowSafety.Pattern

variable {m : Mode} {f f' : Flags}

/-! ## Classes -/

/-- The set under the flags, where case does not count with all other cases. -/
def foldedSet (f : Flags) (s : CodeSet) : CodeSet :=
  if f.caseInsensitive then s.foldCase f.domain else s

mutual

/-- What the inside of a class stands for. -/
inductive Denotes (m : Mode) (f : Flags) : ClassSet → CodeSet → Prop
  | empty : Denotes m f .empty .empty
  | literal {l : Literal} {n : Nat} : l.code? m f = some n → Denotes m f (.literal l) ⟨[(n, n)]⟩
  | range {first last : Literal} {a b : Nat} : first.code? m f = some a →
      last.code? m f = some b → Denotes m f (.range first last) ⟨[(a, b)]⟩
  | named {kind : NamedClass} {negated : Bool} {s : CodeSet} :
      finish? m f negated kind.set = some s → Denotes m f (.named kind negated) s.canonical
  | property {query : PropertyQuery} {negated : Bool} {s : CodeSet} :
      propertySet? m f query negated = some s →
      Denotes m f (.property query negated) s.canonical
  | letter {kind : LetterClass} {negated : Bool} {s : CodeSet} :
      letterSet? m f kind negated = some s → Denotes m f (.letter kind negated) s.canonical
  | bracketed {negated : Bool} {set : ClassSet} {s t : CodeSet} : Denotes m f set s →
      finish? m f negated s = some t → Denotes m f (.bracketed negated set) t.canonical
  | union {items : List ClassSet} {rs : List (Nat × Nat)} : DenoteAll m f items rs →
      Denotes m f (.union items) (.ofRanges rs)
  | binary {op : ClassOp} {left right : ClassSet} {s t : CodeSet} : Denotes m f left s →
      Denotes m f right t →
      Denotes m f (.binary op left right) (op.apply f.domain (foldedSet f s) (foldedSet f t))

/-- The ranges that the items of a class stand for, one item after the other. -/
inductive DenoteAll (m : Mode) (f : Flags) : List ClassSet → List (Nat × Nat) → Prop
  | nil : DenoteAll m f [] []
  | cons {item : ClassSet} {items : List ClassSet} {s : CodeSet} {rs : List (Nat × Nat)} :
      Denotes m f item s → DenoteAll m f items rs → DenoteAll m f (item :: items) (s.ranges ++ rs)

end

theorem apply_foldedSet (op : ClassOp) (s t : CodeSet) :
    (if f.caseInsensitive then op.apply f.domain (s.foldCase f.domain) (t.foldCase f.domain)
      else op.apply f.domain s t) = op.apply f.domain (foldedSet f s) (foldedSet f t) := by
  unfold foldedSet
  split <;> rfl

mutual

theorem denotes_of_classSet : ∀ {set : ClassSet} {s : CodeSet}, classSet? m f set = some s →
    Denotes m f set s
  | .empty, _, h => by
    cases h
    exact .empty
  | .literal l, _, h => by
    obtain ⟨n, hn, rfl⟩ := Option.map_eq_some_iff.mp h
    exact .literal hn
  | .range first last, _, h => by
    obtain ⟨a, ha, h⟩ := Option.bind_eq_some_iff.mp h
    obtain ⟨b, hb, rfl⟩ := Option.map_eq_some_iff.mp h
    exact .range ha hb
  | .named kind negated, _, h => by
    obtain ⟨s, hs, rfl⟩ := Option.map_eq_some_iff.mp h
    exact .named hs
  | .property query negated, _, h => by
    obtain ⟨s, hs, rfl⟩ := Option.map_eq_some_iff.mp h
    exact .property hs
  | .letter kind negated, _, h => by
    obtain ⟨s, hs, rfl⟩ := Option.map_eq_some_iff.mp h
    exact .letter hs
  | .bracketed negated set, _, h => by
    obtain ⟨t, ht, rfl⟩ := Option.map_eq_some_iff.mp h
    obtain ⟨s, hs, ht⟩ := Option.bind_eq_some_iff.mp ht
    exact .bracketed (denotes_of_classSet hs) ht
  | .union items, _, h => by
    obtain ⟨rs, hrs, rfl⟩ := Option.map_eq_some_iff.mp h
    exact .union (denoteAll_of_unionSet hrs)
  | .binary op left right, _, h => by
    obtain ⟨s, hs, h⟩ := Option.bind_eq_some_iff.mp h
    obtain ⟨t, ht, rfl⟩ := Option.map_eq_some_iff.mp h
    rw [apply_foldedSet]
    exact .binary (denotes_of_classSet hs) (denotes_of_classSet ht)

theorem denoteAll_of_unionSet : ∀ {items : List ClassSet} {rs : List (Nat × Nat)},
    unionSet? m f items = some rs → DenoteAll m f items rs
  | [], _, h => by
    cases h
    exact .nil
  | item :: items, _, h => by
    obtain ⟨s, hs, h⟩ := Option.bind_eq_some_iff.mp h
    obtain ⟨rs, hrs, rfl⟩ := Option.map_eq_some_iff.mp h
    exact .cons (denotes_of_classSet hs) (denoteAll_of_unionSet hrs)

end

mutual

theorem Denotes.classSet_eq {set : ClassSet} {s : CodeSet} (h : Denotes m f set s) :
    classSet? m f set = some s := by
  cases h with
  | empty => rfl
  | literal hn => rw [classSet?, hn, Option.map_some]
  | range ha hb => rw [classSet?, ha, Option.bind_some, hb, Option.map_some]
  | named hs => rw [classSet?, hs, Option.map_some]
  | property hs => rw [classSet?, hs, Option.map_some]
  | letter hs => rw [classSet?, hs, Option.map_some]
  | bracketed hs ht => rw [classSet?, hs.classSet_eq, Option.bind_some, ht, Option.map_some]
  | union hrs => rw [classSet?, hrs.unionSet_eq, Option.map_some]
  | binary hs ht =>
    rw [classSet?, hs.classSet_eq, Option.bind_some, ht.classSet_eq, Option.map_some,
      apply_foldedSet]

theorem DenoteAll.unionSet_eq {items : List ClassSet} {rs : List (Nat × Nat)}
    (h : DenoteAll m f items rs) : unionSet? m f items = some rs := by
  cases h with
  | nil => rfl
  | cons hs hrs => rw [unionSet?, hs.classSet_eq, Option.bind_some, hrs.unionSet_eq, Option.map_some]

end

theorem classSet_eq_some_iff {set : ClassSet} {s : CodeSet} :
    classSet? m f set = some s ↔ Denotes m f set s :=
  ⟨denotes_of_classSet, Denotes.classSet_eq⟩

/-! ## Patterns -/

mutual

/-- What a pattern becomes under some flags, and the flags behind it. -/
inductive Resolves (m : Mode) : Flags → Ast → Core → Flags → Prop
  | empty {f : Flags} : Resolves m f .empty .empty f
  | flags {f : Flags} {change : FlagChange} :
      Resolves m f (.flags change) .empty (f.change change)
  | literal {f : Flags} {l : Literal} {h : Core} : literal? m f l = some h →
      Resolves m f (.literal l) h f
  | dot {f : Flags} {h : Core} : dot? m f = some h → Resolves m f .dot h f
  | assertion {f : Flags} {a : Assertion} : Resolves m f (.assertion a) (.look (look f a)) f
  | property {f : Flags} {query : PropertyQuery} {negated : Bool} {s : CodeSet} :
      propertySet? m f query negated = some s →
      Resolves m f (.property query negated) (.ofSet f.domain s) f
  | letter {f : Flags} {kind : LetterClass} {negated : Bool} {s : CodeSet} :
      letterSet? m f kind negated = some s →
      Resolves m f (.letter kind negated) (.ofSet f.domain s) f
  | bracketed {f : Flags} {negated : Bool} {set : ClassSet} {s t : CodeSet} :
      Denotes m f set s → finish? m f negated s = some t →
      Resolves m f (.bracketed negated set) (.ofSet f.domain t) f
  | repetition {f f' : Flags} {min : Nat} {max : Option Nat} {greedy : Bool} {sub : Ast}
      {h : Core} : Resolves m f sub h f' →
      Resolves m f (.repetition min max greedy sub)
        (.repeated min max (greedy != f'.swapGreed) h) f'
  /-- The flags that are changed inside of a group do not reach behind it. -/
  | capture {f f' : Flags} {index : Nat} {sub : Ast} {h : Core} : Resolves m f sub h f' →
      Resolves m f (.group (.capture index) sub) (.capture index h) f
  | plain {f f' : Flags} {change : FlagChange} {sub : Ast} {h : Core} :
      Resolves m (f.change change) sub h f' → Resolves m f (.group (.plain change) sub) h f
  | alternation {f f' : Flags} {branches : List Ast} {hs : List Core} :
      ResolveAll m f branches hs f' → Resolves m f (.alternation branches) (.oneOf hs) f'
  | concat {f f' : Flags} {items : List Ast} {hs : List Core} : ResolveAll m f items hs f' →
      Resolves m f (.concat items) (.inRow hs) f'

/-- The same for some patterns, each under the flags that the one before it leaves. -/
inductive ResolveAll (m : Mode) : Flags → List Ast → List Core → Flags → Prop
  | nil {f : Flags} : ResolveAll m f [] [] f
  | cons {f between f' : Flags} {item : Ast} {items : List Ast} {h : Core} {hs : List Core} :
      Resolves m f item h between → ResolveAll m between items hs f' →
      ResolveAll m f (item :: items) (h :: hs) f'

end

mutual

theorem resolves_of_resolve : ∀ {ast : Ast} {f f' : Flags} {h : Core},
    resolve? m f ast = some (h, f') → Resolves m f ast h f'
  | .empty, _, _, _, hresolve => by
    cases hresolve
    exact .empty
  | .flags change, _, _, _, hresolve => by
    cases hresolve
    exact .flags
  | .literal l, _, _, _, hresolve => by
    obtain ⟨h, hliteral, heq⟩ := Option.map_eq_some_iff.mp hresolve
    cases heq
    exact .literal hliteral
  | .dot, _, _, _, hresolve => by
    obtain ⟨h, hdot, heq⟩ := Option.map_eq_some_iff.mp hresolve
    cases heq
    exact .dot hdot
  | .assertion a, _, _, _, hresolve => by
    cases hresolve
    exact .assertion
  | .property query negated, _, _, _, hresolve => by
    obtain ⟨s, hs, heq⟩ := Option.map_eq_some_iff.mp hresolve
    cases heq
    exact .property hs
  | .letter kind negated, _, _, _, hresolve => by
    obtain ⟨s, hs, heq⟩ := Option.map_eq_some_iff.mp hresolve
    cases heq
    exact .letter hs
  | .bracketed negated set, _, _, _, hresolve => by
    obtain ⟨t, ht, heq⟩ := Option.map_eq_some_iff.mp hresolve
    cases heq
    obtain ⟨s, hs, ht⟩ := Option.bind_eq_some_iff.mp ht
    exact .bracketed (classSet_eq_some_iff.mp hs) ht
  | .repetition min max greedy sub, _, _, _, hresolve => by
    obtain ⟨⟨h, after⟩, hsub, heq⟩ := Option.map_eq_some_iff.mp hresolve
    cases heq
    exact .repetition (resolves_of_resolve hsub)
  | .group (.capture index) sub, _, _, _, hresolve => by
    obtain ⟨⟨h, after⟩, hsub, heq⟩ := Option.map_eq_some_iff.mp hresolve
    cases heq
    exact .capture (resolves_of_resolve hsub)
  | .group (.plain change) sub, _, _, _, hresolve => by
    obtain ⟨⟨h, after⟩, hsub, heq⟩ := Option.map_eq_some_iff.mp hresolve
    cases heq
    exact .plain (resolves_of_resolve hsub)
  | .alternation branches, _, _, _, hresolve => by
    obtain ⟨⟨hs, after⟩, hbranches, heq⟩ := Option.map_eq_some_iff.mp hresolve
    cases heq
    exact .alternation (resolveAll_of_resolveAll hbranches)
  | .concat items, _, _, _, hresolve => by
    obtain ⟨⟨hs, after⟩, hitems, heq⟩ := Option.map_eq_some_iff.mp hresolve
    cases heq
    exact .concat (resolveAll_of_resolveAll hitems)

theorem resolveAll_of_resolveAll : ∀ {items : List Ast} {f f' : Flags} {hs : List Core},
    resolveAll? m f items = some (hs, f') → ResolveAll m f items hs f'
  | [], _, _, _, hresolve => by
    cases hresolve
    exact .nil
  | item :: items, _, _, _, hresolve => by
    obtain ⟨⟨h, between⟩, hitem, hresolve⟩ := Option.bind_eq_some_iff.mp hresolve
    obtain ⟨⟨hs, after⟩, hitems, heq⟩ := Option.map_eq_some_iff.mp hresolve
    cases heq
    exact .cons (resolves_of_resolve hitem) (resolveAll_of_resolveAll hitems)

end

mutual

theorem Resolves.resolve_eq {ast : Ast} {f f' : Flags} {h : Core} (hr : Resolves m f ast h f') :
    resolve? m f ast = some (h, f') := by
  cases hr with
  | empty => rfl
  | flags => rfl
  | literal hliteral => rw [resolve?, hliteral, Option.map_some]
  | dot hdot => rw [resolve?, hdot, Option.map_some]
  | assertion => rfl
  | property hs => rw [resolve?, hs, Option.map_some]
  | letter hs => rw [resolve?, hs, Option.map_some]
  | bracketed hs ht => rw [resolve?, hs.classSet_eq, Option.bind_some, ht, Option.map_some]
  | repetition hsub => rw [resolve?, hsub.resolve_eq, Option.map_some]
  | capture hsub => rw [resolve?, hsub.resolve_eq, Option.map_some]
  | plain hsub => rw [resolve?, hsub.resolve_eq, Option.map_some]
  | alternation hbranches => rw [resolve?, hbranches.resolveAll_eq, Option.map_some]
  | concat hitems => rw [resolve?, hitems.resolveAll_eq, Option.map_some]

theorem ResolveAll.resolveAll_eq {items : List Ast} {f f' : Flags} {hs : List Core}
    (hr : ResolveAll m f items hs f') : resolveAll? m f items = some (hs, f') := by
  cases hr with
  | nil => rfl
  | cons hitem hitems =>
    rw [resolveAll?, hitem.resolve_eq, Option.bind_some]
    dsimp only
    rw [hitems.resolveAll_eq, Option.map_some]

end

theorem resolve_eq_some_iff {ast : Ast} {h : Core} :
    resolve? m f ast = some (h, f') ↔ Resolves m f ast h f' :=
  ⟨resolves_of_resolve, Resolves.resolve_eq⟩

/-- A pattern has a meaning if it resolves under the flags of the mode, whatever flags it leaves. -/
theorem meaning_eq_some_iff {ast : Ast} {h : Core} :
    meaning? m ast = some h ↔ ∃ f, Resolves m m.flags ast h f := by
  constructor
  · intro hmeaning
    obtain ⟨⟨h, f⟩, hresolve, rfl⟩ := Option.map_eq_some_iff.mp hmeaning
    exact ⟨f, resolve_eq_some_iff.mp hresolve⟩
  · rintro ⟨f, hresolves⟩
    rw [meaning?, resolve_eq_some_iff.mpr hresolves, Option.map_some]

end FlowSafety.Pattern
