import FlowSafety.Proofs.Json.Reading

/-!
# Decoding what was encoded

What the readers of records, choices, lists and options make of the values that the writers build.
The names of members and alternatives are plain: they are written as they are.

* `IsRecord.record?_object` — a record is read field by field; the fields behind its members are
  left out
* `choice?_variant`, `unitChoice?_ofText` — an alternative is told by its name
* `list?_ofList`, `nullable?_ofOption` — items and options are read one by one
-/

namespace FlowSafety.Json

variable {α β : Type}

/-! ## Plain names -/

/-- A plain name is written as it is. -/
theorem unescape_of_plain {name : String} (h : escape name = name) :
    unescape name = some name := by
  have hread := unescape_escape name
  rwa [h] at hread

theorem isContent_of_plain {name : String} (h : escape name = name) : IsContent name :=
  h ▸ isContent_escape name

namespace WellFormed

theorem variant {name : String} {argument : Json} (hname : escape name = name)
    (hargument : WellFormed argument) : WellFormed (.variant name argument) :=
  .object (List.forall_mem_singleton.mpr (isContent_of_plain hname))
    (List.forall_mem_singleton.mpr hargument)

end WellFormed

/-! ## Records -/

/-- The members are the first fields of a record, under plain names. -/
structure IsRecord (names : List String) (members : List (String × Json)) : Prop where
  opens : members.map (·.1) = names.take members.length
  plain : ∀ name ∈ names, escape name = name
  distinct : names.Nodup

theorem named?_of_plain {members : List (String × Json)}
    (h : ∀ member ∈ members, escape member.1 = member.1) : named? members = some members := by
  induction members with
  | nil => rfl
  | cons member members ih =>
    obtain ⟨hmember, hmembers⟩ := List.forall_mem_cons.mp h
    simp [named?, unescape_of_plain hmember, ih hmembers]

theorem membersNamed_eq_nil {members : List (String × Json)} {name : String}
    (h : name ∉ members.map (·.1)) : membersNamed name members = [] := by
  simp only [membersNamed, List.map_eq_nil_iff, List.filter_eq_nil_iff, decide_eq_true_eq]
  rintro member hmember rfl
  exact h (List.mem_map_of_mem hmember)

theorem fieldsNamed?_eq_unnamed {members : List (String × Json)} {names : List String}
    (h : ∀ name ∈ names, name ∉ members.map (·.1)) :
    fieldsNamed? members names = some (List.replicate names.length .unnamed) := by
  induction names with
  | nil => rfl
  | cons name names ih =>
    obtain ⟨hname, hnames⟩ := List.forall_mem_cons.mp h
    simp [fieldsNamed?, fieldNamed?, membersNamed_eq_nil hname, ih hnames, List.replicate_succ]

theorem fieldsNamed?_append {members : List (String × Json)} (names others : List String) :
    fieldsNamed? members (names ++ others) =
      (fieldsNamed? members names).bind fun fields =>
        (fieldsNamed? members others).map (fields ++ ·) := by
  induction names with
  | nil => simp [fieldsNamed?]
  | cons name names ih =>
    simp only [List.cons_append, fieldsNamed?, ih]
    cases fieldNamed? members name <;> cases fieldsNamed? members names <;>
      cases fieldsNamed? members others <;> rfl

/-- Members before the ones that are asked for do not matter if they have other names. -/
theorem fieldsNamed?_cons {member : String × Json} {members : List (String × Json)}
    {names : List String} (h : member.1 ∉ names) :
    fieldsNamed? (member :: members) names = fieldsNamed? members names := by
  induction names with
  | nil => rfl
  | cons name names ih =>
    obtain ⟨hname, hnames⟩ := not_or.mp fun hmem => h (List.mem_cons.mpr hmem)
    simp [fieldsNamed?, fieldNamed?, membersNamed, hname, ih hnames]

theorem fieldsNamed?_of_distinct {members : List (String × Json)}
    (h : (members.map (·.1)).Nodup) :
    fieldsNamed? members (members.map (·.1)) = some (members.map fun m => .given m.2) := by
  induction members with
  | nil => rfl
  | cons member members ih =>
    obtain ⟨hmember, hmembers⟩ := List.nodup_cons.mp h
    have hfirst : fieldNamed? (member :: members) member.1 = some (.given member.2) := by
      have hnone := membersNamed_eq_nil hmember
      unfold membersNamed at hnone
      simp [fieldNamed?, membersNamed, hnone]
    simp only [List.map_cons]
    rw [fieldsNamed?, hfirst, fieldsNamed?_cons hmember, ih hmembers]
    rfl

namespace IsRecord

variable {names : List String} {members : List (String × Json)}

theorem plain_of_mem (h : IsRecord names members) {member : String × Json}
    (hmember : member ∈ members) : escape member.1 = member.1 := by
  have hmem : member.1 ∈ members.map (·.1) := List.mem_map_of_mem hmember
  exact h.plain _ (List.mem_of_mem_take (h.opens ▸ hmem))

theorem wellFormed (h : IsRecord names members)
    (hvalues : ∀ member ∈ members, WellFormed member.2) : WellFormed (.object members) :=
  .object (fun _ hmember => isContent_of_plain (h.plain_of_mem hmember)) hvalues

/-- A record is read field by field. The fields after its members are left out. -/
theorem record?_object (h : IsRecord names members) :
    record? names (.object members) =
      some (members.map (fun m => .given m.2) ++
        List.replicate (names.length - members.length) .unnamed) := by
  -- the names of the members come first, and those behind them are no member's
  have hsplit : names = members.map (·.1) ++ names.drop members.length := by
    rw [h.opens, List.take_append_drop]
  have hdistinct := hsplit ▸ h.distinct
  rw [List.nodup_append] at hdistinct
  obtain ⟨hgiven, -, hapart⟩ := hdistinct
  have habsent : ∀ name ∈ names.drop members.length, name ∉ members.map (·.1) :=
    fun name hname hmem => hapart name hmem name hname rfl
  rw [record?, named?_of_plain fun _ hmember => h.plain_of_mem hmember, Option.bind_some]
  conv => lhs; rw [hsplit]
  rw [fieldsNamed?_append, fieldsNamed?_of_distinct hgiven, fieldsNamed?_eq_unnamed habsent,
    List.length_drop]
  rfl

end IsRecord

/-- In a document the fields of an alternative are a record. -/
@[simp] theorem recordIn?_document (names : List String) (j : Json) :
    recordIn? .document names j = record? names j := rfl

@[simp] theorem Field.required_given (f : Json → Option α) (j : Json) :
    (Field.given j).required f = f j := rfl

@[simp] theorem Field.withDefault_given (fallback : α) (f : Json → Option α) (j : Json) :
    (Field.given j).withDefault fallback f = f j := rfl

@[simp] theorem Field.withDefault_unnamed (fallback : α) (f : Json → Option α) :
    Field.unnamed.withDefault fallback f = some fallback := rfl

/-! ## Choices -/

theorem choice?_variant {name : String} (h : escape name = name) (argument : Json) :
    choice? (variant name argument) = some (name, some argument) := by
  simp [choice?, variant, unescape_of_plain h]

theorem unitChoice?_ofText {alternatives : List α} {nameOf : α → String} {a : α}
    (hmem : a ∈ alternatives) (hname : ∀ b ∈ alternatives, nameOf b = nameOf a → b = a) :
    unitChoice? alternatives nameOf (ofText (nameOf a)) = some a := by
  simp only [unitChoice?, choice?_ofText, Option.bind_some]
  cases hfind : alternatives.find? fun b => nameOf b = nameOf a with
  | none => simpa using List.find?_eq_none.mp hfind a hmem
  | some b =>
    have heq : nameOf b = nameOf a := by simpa using List.find?_some hfind
    rw [hname b (List.mem_of_find?_eq_some hfind) heq]

/-! ## Lists and options -/

theorem list?_ofList {f : Json → Option α} {g : α → Json} {items : List α}
    (h : ∀ a ∈ items, f (g a) = some a) : list? f (ofList g items) = some items := by
  show all? f (items.map g) = some items
  induction items with
  | nil => rfl
  | cons a items ih =>
    obtain ⟨ha, hitems⟩ := List.forall_mem_cons.mp h
    simp [all?, ha, ih hitems]

theorem nullable?_ofOption {f : Json → Option α} {g : α → Json} {o : Option α}
    (hne : ∀ a, g a ≠ .null) (h : ∀ a ∈ o, f (g a) = some a) :
    nullable? f (ofOption g o) = some o := by
  cases o with
  | none => rfl
  | some a =>
    show nullable? f (g a) = _
    rw [nullable?, h a rfl]
    · rfl
    · exact hne a

end FlowSafety.Json
