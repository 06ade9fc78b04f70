import FlowSafety.Catalogue.Builtins
import FlowSafety.Proofs.Results
import FlowSafety.Walk.Basic

/-!
# Catalogues that registering makes

A catalogue starts out empty or with the built-in transforms, and grows by one transform at a time.
Registering checks every effect, so a catalogue made in this way holds none that would not fit; in
particular, no name in it stands for a call of another name.

* `Catalogue.Registered` — the catalogues that registering makes
* `Catalogue.enter_cases` — entering changes nothing or adds the transform
* `Catalogue.Registered.of_insert` — what adding a transform keeps holds of them
* `Catalogue.Registered.entry_fits` — every effect in them fits
* `Catalogue.Means` — the operator that a step asks for, under its own name or under an alias
-/

namespace FlowSafety

namespace Catalogue

variable {c c' : Catalogue} {name : String} {declared : ValueKind} {effect : Effect}

/-! ## Registering -/

/-- What entering a transform checks, in this order, and what it leaves behind. -/
theorem enter_run (c : Catalogue) (name : String) (declared : ValueKind) (effect : Effect) :
    (enter name declared effect).run c =
      if name.isEmpty then .error (.setup .emptyName) c
      else if c.contains name then .error (.setup (.nameTaken name)) c
      else if effect.kind ≠ declared then
        .error (.setup (.wrongKind name declared effect.kind)) c
      else
        match effectFault? name effect with
        | some cause => .error (.setup cause) c
        | none => .ok () (c.insert name effect) := by
  have hget : ∀ {α : Type} {f : Catalogue → Action Catalogue α},
      EStateM.run (get >>= f) c = (f c).run c := rfl
  unfold enter
  dsimp only
  -- a check that passes leaves the rest of the action to run
  by_cases hname : name.isEmpty = true
  · rw [if_pos hname, if_pos hname]
    rfl
  rw [if_neg hname, if_neg hname, hget]
  by_cases htaken : c.contains name = true
  · rw [if_pos htaken, if_pos htaken]
    rfl
  rw [if_neg htaken, if_neg htaken]
  by_cases hkind : effect.kind ≠ declared
  · rw [if_pos hkind, if_pos hkind]
    rfl
  rw [if_neg hkind, if_neg hkind]
  cases effectFault? name effect <;> rfl

/-- Entering is refused and changes nothing, or it adds the transform under a new name and with an
effect that fits. -/
theorem enter_cases (c : Catalogue) (name : String) (declared : ValueKind) (effect : Effect) :
    (∃ cause, (enter name declared effect).run c = .error (.setup cause) c ∧
        ¬ (name.isEmpty = false ∧ c.get? name = none ∧ effect.kind = declared ∧
          effectFault? name effect = none)) ∨
      ((enter name declared effect).run c = .ok () (c.insert name effect) ∧
        name.isEmpty = false ∧ c.get? name = none ∧ effect.kind = declared ∧
          effectFault? name effect = none) := by
  rw [enter_run]
  split
  · next hname => exact .inl ⟨_, rfl, fun h => by rw [h.1] at hname; contradiction⟩
  · next hname =>
    split
    · next htaken => exact .inl ⟨_, rfl, fun h => (contains_iff c name).mp htaken h.2.1⟩
    · next htaken =>
      split
      · next hkind => exact .inl ⟨_, rfl, fun h => hkind h.2.2.1⟩
      · next hkind =>
        split
        · next hfault => exact .inl ⟨_, rfl, fun h => by rw [h.2.2.2] at hfault; contradiction⟩
        · next hfault =>
          have hget : c.get? name = none :=
            not_not.mp fun h => htaken ((contains_iff c name).mpr h)
          exact .inr ⟨rfl, Bool.not_eq_true _ ▸ hname, hget, not_not.mp hkind, hfault⟩

/-- A transform is registered only under a new name and with an effect that fits. -/
theorem register_eq_ok (h : c.register name declared effect = .ok c') :
    name.isEmpty = false ∧ c.get? name = none ∧ effect.kind = declared ∧
      effectFault? name effect = none ∧ c' = c.insert name effect := by
  unfold register Action.answer at h
  rcases enter_cases c name declared effect with
    ⟨cause, hrun, -⟩ | ⟨hrun, hname, hnew, hkind, hfault⟩
  · rw [hrun] at h
    contradiction
  · rw [hrun] at h
    exact ⟨hname, hnew, hkind, hfault, (Except.ok.inj h).symm⟩

/-- The catalogues that registering makes, from none or from the built-in transforms on. -/
inductive Registered : Catalogue → Prop
  | empty : Registered .empty
  | builtins : Registered .builtins
  | register {c c' : Catalogue} {name : String} {declared : ValueKind} {effect : Effect} :
      Registered c → c.register name declared effect = .ok c' → Registered c'

/-- What holds of the empty catalogue, and is kept where a transform is added, holds of every
catalogue that registering makes. -/
theorem Registered.of_insert {P : Catalogue → Prop} (hempty : P .empty)
    (hinsert : ∀ {c name effect}, P c → P (c.insert name effect)) (hc : c.Registered) : P c := by
  induction hc with
  | empty => exact hempty
  | builtins => exact List.foldlRecOn _ _ hempty fun _ h _ _ => hinsert h
  | register _ hregister ih =>
    obtain ⟨-, -, -, -, rfl⟩ := register_eq_ok hregister
    exact hinsert ih

/-- What is built in is one of the entries of the lists. -/
theorem mem_of_builtins (h : builtins.get? name = some effect) :
    (name, effect) ∈ htmlEscapes ++ scriptEscapes ++ urlEncoders ++ cssEscapes ++ formatters ++
      redactions ++ passThroughs ++ numericHelpers := by
  rw [builtins, get?_ofList] at h
  obtain ⟨before, after, hentries, -⟩ := List.lookup_eq_some_iff.mp h
  rw [← List.mem_reverse, hentries]
  exact List.mem_append_right before List.mem_cons_self

/-- The built-in transforms would all pass the checks that registering makes: each has a name, and
an effect that fits. -/
theorem fits_builtins (h : builtins.get? name = some effect) :
    name.isEmpty = false ∧ effectFault? name effect = none := by
  have hall : (htmlEscapes ++ scriptEscapes ++ urlEncoders ++ cssEscapes ++ formatters ++
      redactions ++ passThroughs ++ numericHelpers).all
        (fun entry => !entry.1.isEmpty && (effectFault? entry.1 entry.2).isNone) = true := by
    rfl
  have hentry := List.all_eq_true.mp hall _ (mem_of_builtins h)
  rw [Bool.and_eq_true, Bool.not_eq_true', Option.isNone_iff_eq_none] at hentry
  exact hentry

/-- In a catalogue that registering made every name is one, and every effect fits. -/
theorem Registered.entry_fits (hc : c.Registered) (h : c.get? name = some effect) :
    name.isEmpty = false ∧ effectFault? name effect = none := by
  induction hc with
  | empty => rw [get?_empty] at h; contradiction
  | builtins => exact fits_builtins h
  | @register c c' other _ e _ hregister ih =>
    obtain ⟨hother, -, -, hfault, rfl⟩ := register_eq_ok hregister
    rw [get?_insert] at h
    split at h
    · next hname =>
      obtain rfl := Option.some.inj h
      rw [hname]
      exact ⟨hother, hfault⟩
    · exact ih h

/-- No name stands for a call. -/
theorem Registered.ne_call {o : Operator} (hc : c.Registered)
    (h : c.get? name = some (.numeric (.builtin o))) (target : String) : o ≠ .call target := by
  rintro rfl
  have hfault := (hc.entry_fits h).2
  contradiction

/-! ## Aliases -/

/-- The second operator is what the first one asks for: itself, or the operator that its name is an
alias of. -/
inductive Means (c : Catalogue) : Operator → Operator → Prop
  | direct {o : Operator} : (∀ name, o ≠ .call name) → Means c o o
  | renamed {name : String} {o : Operator} : c.get? name = some (.numeric (.builtin o)) →
      Means c (.call name) o

theorem Means.numericTarget {o o' : Operator} (h : c.Means o o') (index : Nat) :
    Walk.numericTarget c index o = .ok (.builtin o') := by
  cases h with
  | direct hcall =>
    unfold Walk.numericTarget
    split
    · next name => exact absurd rfl (hcall name)
    · rfl
  | renamed hget =>
    unfold Walk.numericTarget
    simp only [hget]

end Catalogue

end FlowSafety
