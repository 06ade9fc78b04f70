import FlowSafety.Proofs.Text.Casing

/-!
# Bounds of texts

A guarantee bounds a text if its length and its values are true of the text. Cutting, joining and
putting constant text beside a text keep the guarantee a bound. So does a case mapping, unless the
text has characters that the charset knows nothing of, and these become longer.

* `TextGuarantee.Bounds` — the length and the values are true of the text
* `Bounds.truncate`, `Bounds.concat`, `Bounds.beside`, `Bounds.caseMapped` — what each operation
  makes of it
-/

namespace FlowSafety.TextGuarantee

variable {g h : TextGuarantee} {s t : String}

/-- What the guarantee says of the length and the values is true of the text. -/
structure Bounds (g : TextGuarantee) (s : String) : Prop where
  length : ∀ m ∈ g.maxLength, s.length ≤ m
  value : ∀ vs ∈ g.values, s ∈ vs

theorem bounds_oneOf {values : TextSet} (hs : s ∈ values) : (oneOf values).Bounds s where
  length := by
    intro m hm
    obtain rfl := Option.some.inj hm
    exact TextSet.length_le_longest hs
  value := by
    intro vs hvs
    obtain rfl := Option.some.inj hvs
    exact hs

/-- The first characters of a text are bounded by what is left at the front of its guarantee. -/
theorem Bounds.truncate (hs : g.Bounds s) (length : Nat) :
    (g.truncate length).Bounds (String.ofList (s.toList.take length)) where
  length := by
    intro n hn
    obtain rfl := Option.some.inj hn
    rw [String.length_ofList, List.length_take, String.length_toList]
    cases hm : g.maxLength with
    | none => exact Nat.min_le_left length s.length
    | some m =>
      have hle := hs.length m hm
      show min length s.length ≤ min m length
      omega
  value := by
    intro vs hvs
    obtain ⟨us, hus, rfl⟩ := Option.map_eq_some_iff.mp hvs
    exact TextSet.mem_map.mpr ⟨s, hs.value us hus, rfl⟩

theorem Bounds.concat (hs : g.Bounds s) (ht : h.Bounds t) : (g.concat h).Bounds (s ++ t) where
  length := by
    intro m hm
    obtain ⟨k, hk, hm⟩ := Option.bind_eq_some_iff.mp hm
    obtain ⟨l, hl, hm⟩ := Option.bind_eq_some_iff.mp hm
    obtain ⟨rfl, -⟩ := Size.checked_eq_some_iff.mp hm
    rw [String.length_append]
    exact Nat.add_le_add (hs.length k hk) (ht.length l hl)
  value := nofun

/-- Constant text beside a text adds to its length. -/
theorem Bounds.beside {length : Nat} (hs : g.Bounds s) (place : String → String)
    (hplace : (place s).length = s.length + length) : (g.beside length place).Bounds (place s) where
  length := by
    intro m hm
    obtain ⟨k, hk, hm⟩ := Option.bind_eq_some_iff.mp hm
    obtain ⟨rfl, -⟩ := Size.checked_eq_some_iff.mp hm
    rw [hplace]
    exact Nat.add_le_add_right (hs.length k hk) length
  value := by
    intro vs hvs
    obtain ⟨us, hus, rfl⟩ := Option.map_eq_some_iff.mp hvs
    exact TextSet.mem_map.mpr ⟨s, hs.value us hus, rfl⟩

theorem Bounds.prepend (hs : g.Bounds s) (literal : String) :
    (g.prepend literal).Bounds (literal ++ s) :=
  hs.beside (literal ++ ·) (by rw [String.length_append, Nat.add_comm])

theorem Bounds.append (hs : g.Bounds s) (literal : String) :
    (g.append literal).Bounds (s ++ literal) :=
  hs.beside (· ++ literal) (String.length_append s literal)

/-- The mapping of a text is bounded, if a text that is not known to be one of finitely many and
that is taken to be ASCII does not become longer. -/
theorem Bounds.caseMapped {lower : Bool} (hs : g.Bounds s)
    (hsteady : g.values = none → g.charset.possible.hasNonAscii = false →
      (Text.mapCase lower s).length ≤ s.length) :
    (g.caseMapped lower).Bounds (Text.mapCase lower s) := by
  unfold TextGuarantee.caseMapped
  cases hvalues : g.values with
  | some values => exact bounds_oneOf (TextSet.mem_map.mpr ⟨s, hs.value values hvalues, rfl⟩)
  | none =>
    refine ⟨?_, nofun⟩
    intro m hm
    simp only at hm
    split at hm
    · obtain ⟨k, hk, hm⟩ := Option.bind_eq_some_iff.mp hm
      obtain ⟨rfl, -⟩ := Size.checked_eq_some_iff.mp hm
      exact Nat.le_trans (Text.length_mapCase_le lower s)
        (Nat.mul_le_mul_left Charset.maxCaseExpansion (hs.length k hk))
    · next hwide =>
      exact Nat.le_trans (hsteady hvalues (Bool.not_eq_true _ ▸ hwide)) (hs.length m hm)

end FlowSafety.TextGuarantee
