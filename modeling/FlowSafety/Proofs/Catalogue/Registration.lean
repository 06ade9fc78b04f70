import FlowSafety.Proofs.Catalogue.Registered

/-!
# Runs of registrations

A catalogue is built by registering one transform after the other, from an empty catalogue or from
the built-in one. A registration that is refused changes nothing, and an accepted one adds its name
and no other, so a name keeps the effect of the first registration that was accepted for it.

* `Catalogue.afterAll` — the catalogue after some registrations
* `Catalogue.get?_afterAll` — what a name stands for then
* `Catalogue.Registered.storesNames` — every transform stores the name that it stands under
* `Catalogue.IsKept`, `Catalogue.Registered.isKept` — what holds of every catalogue made in this way
* `Catalogue.registrations_only_add` — all of it, for every run
-/

namespace FlowSafety

/-- A transform that is to be registered. -/
structure Registration where
  name : String
  declared : ValueKind
  effect : Effect

/-- The registration is accepted if its name is new. -/
def Registration.fits (r : Registration) : Bool :=
  !r.name.isEmpty && r.effect.kind = r.declared &&
    (Catalogue.effectFault? r.name r.effect).isNone

namespace Catalogue

variable {c c' base : Catalogue} {name : String} {effect : Effect} {r : Registration}
  {rs more : List Registration} {t : Transform} {entries : List (String × Transform)}

/-! ## Runs -/

/-- The catalogue that a registration leaves behind, whether it is refused or not. -/
def after (c : Catalogue) (r : Registration) : Catalogue :=
  (enter r.name r.declared r.effect).left c

/-- The catalogue after some registrations. -/
def afterAll (c : Catalogue) (rs : List Registration) : Catalogue := rs.foldl after c

theorem fits_iff :
    r.fits = true ↔
      r.name.isEmpty = false ∧ r.effect.kind = r.declared ∧
        effectFault? r.name r.effect = none := by
  simp [Registration.fits, and_assoc]

/-- A registration is refused and leaves the catalogue as it is, or it fits, its name is new, and it
adds its transform. -/
theorem after_cases (c : Catalogue) (r : Registration) :
    ((∃ cause, (enter r.name r.declared r.effect).run c = .error (.setup cause) c) ∧
        ¬ (r.fits = true ∧ c.get? r.name = none) ∧ c.after r = c) ∨
      ((enter r.name r.declared r.effect).run c = .ok () (c.after r) ∧
        r.fits = true ∧ c.get? r.name = none ∧ c.after r = c.insert r.name r.effect) := by
  unfold after Action.left
  rcases enter_cases c r.name r.declared r.effect with
    ⟨cause, hrun, hrefused⟩ | ⟨hrun, hname, hnew, hkind, hfault⟩
  · rw [hrun]
    refine .inl ⟨⟨cause, rfl⟩, ?_, rfl⟩
    rintro ⟨hfits, hnew⟩
    obtain ⟨hname, hkind, hfault⟩ := fits_iff.mp hfits
    exact hrefused ⟨hname, hnew, hkind, hfault⟩
  · rw [hrun]
    exact .inr ⟨rfl, fits_iff.mpr ⟨hname, hkind, hfault⟩, hnew, rfl⟩

/-- What a name stands for after a registration: what it stood for, or the effect. -/
theorem get?_after (c : Catalogue) (r : Registration) (name : String) :
    (c.after r).get? name =
      (c.get? name).or (if r.name = name ∧ r.fits = true then some r.effect else none) := by
  rcases after_cases c r with ⟨-, hrefused, heq⟩ | ⟨-, hfits, hnew, heq⟩
  · rw [heq]
    split
    · next hname =>
      obtain ⟨rfl, hfits⟩ := hname
      cases hold : c.get? r.name with
      | none => exact absurd ⟨hfits, hold⟩ hrefused
      | some e => rfl
    · rw [Option.or_none]
  · rw [heq, get?_insert]
    by_cases hname : r.name = name
    · subst hname
      simp [hfits, hnew]
    · simp [hname, Ne.symm hname]

/-- The first registration under a name that fits. -/
def firstFitting (name : String) (rs : List Registration) : Option Registration :=
  rs.find? fun r => r.name = name && r.fits

/-- After a run a name stands for what it stood for before, and else for the effect of the first
registration that fits. -/
theorem get?_afterAll (c : Catalogue) (rs : List Registration) (name : String) :
    (c.afterAll rs).get? name = (c.get? name).or ((firstFitting name rs).map (·.effect)) := by
  induction rs generalizing c with
  | nil => simp [afterAll, firstFitting]
  | cons r rs ih =>
    have hstep : (c.afterAll (r :: rs)).get? name = ((c.after r).afterAll rs).get? name := rfl
    rw [hstep, ih, get?_after, Option.or_assoc, firstFitting, firstFitting, List.find?_cons]
    by_cases h : r.name = name ∧ r.fits = true
    · simp [h]
    · -- what does not fit leaves the name to the registrations behind it
      rw [if_neg h, Option.none_or]
      have hother : (r.name = name && r.fits) = false := by simpa using h
      rw [hother]

/-- A name keeps its effect. -/
theorem get?_afterAll_of_some (h : c.get? name = some effect) :
    (c.afterAll more).get? name = some effect := by
  rw [get?_afterAll, h, Option.some_or]

theorem Registered.after (h : c.Registered) (r : Registration) : (c.after r).Registered := by
  rcases after_cases c r with ⟨-, -, heq⟩ | ⟨haccepted, -⟩
  · exact heq.symm ▸ h
  · have hregister : c.register r.name r.declared r.effect = .ok (c.after r) := by
      unfold Catalogue.register Action.answer
      rw [haccepted]
      rfl
    exact .register h hregister

theorem Registered.afterAll (h : c.Registered) (rs : List Registration) :
    (c.afterAll rs).Registered := by
  induction rs generalizing c with
  | nil => exact h
  | cons r rs ih => exact ih (h.after r)

/-! ## The order of names -/

/-- The names of some entries ascend. -/
def Ascending (entries : List (String × Transform)) : Prop :=
  entries.Pairwise fun a b => Text.before a.1 b.1

theorem mem_insertEntry {entry : String × Transform} (h : entry ∈ insertEntry name t entries) :
    entry = (name, t) ∨ entry ∈ entries := by
  induction entries with
  | nil => exact .inl (List.mem_singleton.mp h)
  | cons first entries ih =>
    obtain ⟨other, u⟩ := first
    unfold insertEntry at h
    split at h
    · exact List.mem_cons.mp h
    · split at h
      · rcases List.mem_cons.mp h with rfl | h
        · exact .inr List.mem_cons_self
        · exact (ih h).imp_right (List.mem_cons_of_mem _)
      · rcases List.mem_cons.mp h with rfl | h
        · exact .inl rfl
        · exact .inr (List.mem_cons_of_mem _ h)

theorem ascending_insertEntry (h : Ascending entries) :
    Ascending (insertEntry name t entries) := by
  induction entries with
  | nil => exact List.pairwise_singleton _ _
  | cons first entries ih =>
    obtain ⟨other, u⟩ := first
    obtain ⟨hfirst, hrest⟩ := List.pairwise_cons.mp h
    unfold insertEntry
    split
    · next hbefore =>
      -- in front of the first entry, hence of all
      refine List.pairwise_cons.mpr ⟨fun entry hentry => ?_, h⟩
      rcases List.mem_cons.mp hentry with rfl | hentry
      · exact hbefore
      · exact Text.before_trans hbefore (hfirst entry hentry)
    · next hbefore =>
      split
      · next hafter =>
        refine List.pairwise_cons.mpr ⟨fun entry hentry => ?_, ih hrest⟩
        rcases mem_insertEntry hentry with rfl | hentry
        · exact hafter
        · exact hfirst entry hentry
      · next hafter =>
        -- neither before nor behind: the entry of the same name is replaced
        obtain rfl := Text.eq_of_not_before (Bool.not_eq_true _ ▸ hbefore)
          (Bool.not_eq_true _ ▸ hafter)
        exact List.pairwise_cons.mpr ⟨hfirst, hrest⟩

/-- Where names ascend, a look-up finds every entry. -/
theorem lookup_eq_some_iff (h : Ascending entries) :
    entries.lookup name = some t ↔ (name, t) ∈ entries := by
  induction entries with
  | nil => simp
  | cons first entries ih =>
    obtain ⟨hfirst, hrest⟩ := List.pairwise_cons.mp h
    rw [lookup_cons, List.mem_cons]
    by_cases hname : name = first.1
    · subst hname
      rw [if_pos rfl, Option.some_inj]
      constructor
      · rintro rfl
        exact .inl rfl
      · rintro (heq | hmem)
        · exact (congrArg Prod.snd heq).symm
        · have hself := hfirst _ hmem
          rw [Text.before_irrefl] at hself
          contradiction
    · rw [if_neg hname, ih hrest]
      constructor
      · exact .inr
      · rintro (heq | hmem)
        · exact absurd (congrArg Prod.fst heq) hname
        · exact hmem

/-! ## Catalogues -/

theorem Registered.ascending (h : c.Registered) : Ascending c.entries :=
  h.of_insert (P := fun c => Ascending c.entries) .nil ascending_insertEntry

/-- Every transform stores the name that it stands under. -/
def StoresNames (c : Catalogue) : Prop := ∀ entry ∈ c.entries, entry.2.name = entry.1

theorem StoresNames.insert (h : c.StoresNames) : (c.insert name effect).StoresNames := by
  intro entry hentry
  rcases mem_insertEntry hentry with rfl | hentry
  · rfl
  · exact h entry hentry

theorem Registered.storesNames (h : c.Registered) : c.StoresNames :=
  h.of_insert (fun _ hentry => absurd hentry List.not_mem_nil) StoresNames.insert

/-- Where names ascend and are stored, the entries are the names with the effects that they are
looked up to have. -/
theorem mem_entries_iff (hascending : Ascending c.entries) (hstores : c.StoresNames) :
    (name, ⟨name, effect⟩) ∈ c.entries ↔ c.get? name = some effect := by
  rw [get?, transform?, Option.map_eq_some_iff]
  constructor
  · intro hmem
    exact ⟨_, (lookup_eq_some_iff hascending).mpr hmem, rfl⟩
  · rintro ⟨t, hlookup, rfl⟩
    have hmem : (name, t) ∈ c.entries := (lookup_eq_some_iff hascending).mp hlookup
    obtain rfl : t.name = name := hstores _ hmem
    exact hmem

/-- A catalogue in which names ascend and are not empty, a name is looked up at its own entry, whose
transform stores it, and every effect is one that the walk can apply. -/
structure IsKept (c : Catalogue) : Prop where
  ascending : c.names.Pairwise fun s t => Text.before s t
  mem_names_iff : ∀ name, name ∈ c.names ↔ ∃ effect, c.get? name = some effect
  mem_entries_iff : ∀ name effect, (name, ⟨name, effect⟩) ∈ c.entries ↔ c.get? name = some effect
  name_eq : ∀ entry ∈ c.entries, entry.2.name = entry.1
  name_ne_empty : ∀ name ∈ c.names, name ≠ ""
  ne_call : ∀ name target, c.get? name ≠ some (.numeric (.builtin (.call target)))
  radix_eq : ∀ name radix, c.get? name = some (.text (.numericFormat radix)) →
    radix = 10 ∨ radix = 16

theorem Registered.isKept (h : c.Registered) : c.IsKept := by
  have hnames : ∀ name, name ∈ c.names ↔ ∃ effect, c.get? name = some effect := by
    intro name
    simp [names, get?, transform?, lookup_eq_some_iff h.ascending]
  refine ⟨List.pairwise_map.mpr h.ascending, hnames,
    fun _ _ => mem_entries_iff h.ascending h.storesNames, h.storesNames, ?_, ?_, ?_⟩
  · rintro name hname rfl
    obtain ⟨effect, hget⟩ := (hnames "").mp hname
    have hempty := (h.entry_fits hget).1
    contradiction
  · intro name target hget
    exact h.ne_call hget target rfl
  · intro name radix hget
    have hfault := (h.entry_fits hget).2
    by_contra hradix
    rw [effectFault?, if_neg hradix] at hfault
    contradiction

/-- Building fails exactly if nothing is registered. -/
theorem build_cases (c : Catalogue) :
    c.build = .error (.setup .emptyCatalogue) ∧ (∀ name, c.get? name = none) ∨
      c.build = .ok c ∧ ∃ name effect, c.get? name = some effect := by
  unfold build isEmpty
  cases hentries : c.entries with
  | nil =>
    left
    refine ⟨rfl, fun name => ?_⟩
    rw [get?, transform?, hentries]
    rfl
  | cons entry entries =>
    right
    refine ⟨rfl, entry.1, entry.2.effect, ?_⟩
    rw [get?, transform?, hentries, lookup_cons, if_pos rfl]
    rfl

/-! ## Every run -/

/-- In every run from the empty or the built-in catalogue, a refused registration leaves the
catalogue as it is and an accepted one adds its own name with its own effect. So every name keeps
the effect of the first registration that was accepted, which applies to the declared kind of value.
The names ascend and are those that are registered, every transform stores the name that it stands
under, no effect is a call or writes a number in a radix other than 10 and 16, and building fails
exactly if nothing is registered. -/
theorem registrations_only_add (hbase : base = .empty ∨ base = .builtins)
    (rs : List Registration) :
    let c := base.afterAll rs
    (∀ r : Registration,
      (∃ cause, (enter r.name r.declared r.effect).run c = .error (.setup cause) c) ∧
          ¬ (r.fits = true ∧ c.get? r.name = none) ∨
        (enter r.name r.declared r.effect).run c = .ok () (c.after r) ∧
          r.fits = true ∧ c.get? r.name = none ∧
          ∀ name, (c.after r).get? name = if name = r.name then some r.effect else c.get? name) ∧
      (∀ name, c.get? name = (base.get? name).or ((firstFitting name rs).map (·.effect))) ∧
      (∀ name r, firstFitting name rs = some r →
        r ∈ rs ∧ r.name = name ∧ r.effect.kind = r.declared) ∧
      (∀ more name effect, c.get? name = some effect →
        (c.afterAll more).get? name = some effect) ∧
      c.IsKept ∧
      (c.build = .error (.setup .emptyCatalogue) ∧ (∀ name, c.get? name = none) ∨
        c.build = .ok c ∧ ∃ name effect, c.get? name = some effect) := by
  intro c
  have hregistered : c.Registered := by
    rcases hbase with rfl | rfl
    · exact Registered.empty.afterAll rs
    · exact Registered.builtins.afterAll rs
  refine ⟨fun r => ?_, get?_afterAll base rs, fun name r hfirst => ?_,
    fun more name effect => get?_afterAll_of_some, hregistered.isKept,
    build_cases c⟩
  · rcases after_cases c r with ⟨hrefused, hunfit, -⟩ | ⟨haccepted, hfits, hnew, heq⟩
    · exact .inl ⟨hrefused, hunfit⟩
    · refine .inr ⟨haccepted, hfits, hnew, fun name => ?_⟩
      rw [heq, get?_insert]
  · have hfound := List.find?_some hfirst
    rw [Bool.and_eq_true, decide_eq_true_eq] at hfound
    exact ⟨List.mem_of_find?_eq_some hfirst, hfound.1, (fits_iff.mp hfound.2).2.1⟩

/-- Registrations under one name, some of them refused. -/
def limitRegistrations : List Registration :=
  [⟨"", .numeric, operator .min⟩, ⟨"limit", .string, operator .min⟩,
    ⟨"limit", .numeric, operator (.call "limit")⟩, ⟨"limit", .numeric, operator .clamp⟩,
    ⟨"limit", .numeric, operator .max⟩, ⟨"toBinary", .string, .text (.numericFormat 2)⟩]

/-- Of these the first that fits counts, and it is the only one that is accepted. -/
theorem registrations_limit :
    let c := Catalogue.empty.afterAll limitRegistrations
    c.get? "limit" = some (operator .clamp) ∧ c.get? "toBinary" = none ∧
      (c.afterAll limitRegistrations).get? "limit" = some (operator .clamp) ∧
      c.names = ["limit"] ∧ c.IsKept ∧ c.build = .ok c := by
  intro c
  obtain ⟨-, hget, -, hmore, hkept, hbuild⟩ :=
    registrations_only_add (.inl rfl) limitRegistrations
  have hlimit : c.get? "limit" = some (operator .clamp) := hget "limit"
  refine ⟨hlimit, hget "toBinary", hmore _ _ _ hlimit, rfl, hkept, ?_⟩
  rcases hbuild with ⟨-, hnone⟩ | ⟨hok, -⟩
  · rw [hnone "limit"] at hlimit
    contradiction
  · exact hok

end Catalogue

end FlowSafety
