import FlowSafety.Classifier
import FlowSafety.Path.Json
import FlowSafety.Proofs.Json.Decoding
import FlowSafety.Proofs.Path.Validation

/-!
# The persisted form is lossless

A valid path that is written and read again is the same path, so its verdict is the same. Each part
of a path has a lemma that says so of the part, and one that says that what is written for it is
well formed.

Counts and indices are natural numbers here and 64 bits wide in a persisted path; `Path.sizes` lists
the ones of a path.

* `Path.ofText_toText` — the path and every verdict on it survive
-/

namespace FlowSafety

open Json

/-! ## Sets of texts -/

namespace TextSet

theorem insertSorted_of_last {t : String} {us : List String} (h : ∀ u ∈ us, Text.before u t) :
    insertSorted t us = us ++ [t] := by
  induction us with
  | nil => rfl
  | cons u us ih =>
    obtain ⟨hu, hus⟩ := List.forall_mem_cons.mp h
    have hback : ¬ Text.before t u := by
      intro htu
      have hself := Text.before_trans hu htu
      simp [Text.before_irrefl] at hself
    rw [insertSorted, if_neg hback, if_pos hu, ih hus, List.cons_append]

theorem toList_foldl_insert {s : TextSet} {ts : List String}
    (h : (s.toList ++ ts).Pairwise fun t u => Text.before t u) :
    (ts.foldl insert s).toList = s.toList ++ ts := by
  induction ts generalizing s with
  | nil => simp
  | cons t ts ih =>
    have hlast : ∀ u ∈ s.toList, Text.before u t :=
      fun u hu => (List.pairwise_append.mp h).2.2 u hu t List.mem_cons_self
    have hinsert : (s.insert t).toList = s.toList ++ [t] := insertSorted_of_last hlast
    rw [List.foldl_cons, ih, hinsert, List.append_assoc, List.singleton_append]
    rwa [hinsert, List.append_assoc, List.singleton_append]

/-- The texts of a set give the set, since they are in order. -/
theorem ofList_toList (s : TextSet) : ofList s.toList = s := by
  have hlist : (ofList s.toList).toList = s.toList := toList_foldl_insert s.sorted
  cases s with
  | mk ts hts =>
    cases hset : ofList ts with
    | mk us hus =>
      simp only [hset] at hlist
      simp [hlist]

theorem ofJson?_toJson (s : TextSet) : ofJson? s.toJson = some s := by
  rw [ofJson?, toJson, list?_ofList fun t _ => text?_ofText t, Option.map_some, ofList_toList]

theorem wellFormed_toJson (s : TextSet) : s.toJson.WellFormed := .ofList .ofText s.toList

end TextSet

/-! ## Intervals and types -/

theorem Bound.ofJson?_toJson (b : Bound) : ofJson? b.toJson = some b := by
  cases b with
  | negInf => rfl
  | posInf => rfl
  | finite v =>
    rw [toJson, ofJson?, choice?_variant rfl]
    simp

theorem Bound.wellFormed_toJson (b : Bound) : b.toJson.WellFormed := by
  cases b with
  | negInf => exact .ofText _
  | posInf => exact .ofText _
  | finite v => exact .variant rfl (.ofInt v.toInt)

namespace Interval

theorem isRecord (iv : Interval) :
    IsRecord ["low", "high"] [("low", iv.low.toJson), ("high", iv.high.toJson)] :=
  ⟨rfl, by decide, by decide⟩

/-- Any two ends are read back, inverted and saturated ones too. -/
theorem ofJson?_toJson (iv : Interval) : ofJson? iv.toJson = some iv := by
  rw [ofJson?, toJson, iv.isRecord.record?_object]
  simp [Bound.ofJson?_toJson]

theorem wellFormed_toJson (iv : Interval) : iv.toJson.WellFormed :=
  iv.isRecord.wellFormed (by simp [Bound.wellFormed_toJson])

end Interval

theorem IntType.ofJson?_name (type : IntType) : ofJson? (.ofText type.name) = some type :=
  unitChoice?_ofText (by cases type <;> decide) (by cases type <;> decide)

/-! ## Counts and indices -/

/-- Every number fits 64 bits. -/
def Fits (ns : List Nat) : Prop := ∀ n ∈ ns, n ≤ Size.largest

instance (ns : List Nat) : Decidable (Fits ns) :=
  inferInstanceAs (Decidable (∀ n ∈ ns, n ≤ Size.largest))

section Fits

variable {α : Type} {ms ns : List Nat} {n : Nat}

@[simp] theorem fits_singleton : Fits [n] ↔ n ≤ Size.largest := List.forall_mem_singleton

@[simp] theorem fits_append : Fits (ms ++ ns) ↔ Fits ms ∧ Fits ns := List.forall_mem_append

@[simp] theorem fits_flatMap {f : α → List Nat} {items : List α} :
    Fits (items.flatMap f) ↔ ∀ a ∈ items, Fits (f a) := List.forall_mem_flatMap

theorem size?_ofNat (h : n ≤ Size.largest) : size? (.ofNat n) = some n := nat?_ofNat h

theorem nullable?_size (o : Option Nat) (h : Fits o.toList) :
    nullable? size? (ofOption ofNat o) = some o :=
  nullable?_ofOption (fun _ => by simp [ofNat]) fun n hn => size?_ofNat (h n (by simpa using hn))

end Fits

/-! ## Operators, operands and arguments -/

namespace Operator

def sizes : Operator → List Nat
  | .enumOrdinal arity => [arity]
  | _ => []

theorem isRecord_ordinal (arity : Nat) : IsRecord ["arity"] [("arity", .ofNat arity)] :=
  ⟨rfl, by decide, by decide⟩

theorem isRecord_values (values : List Int64) :
    IsRecord ["values"] [("values", .ofList (fun v => .ofInt v.toInt) values)] :=
  ⟨rfl, by decide, by decide⟩

theorem ofJson?_toJson (o : Operator) (h : Fits o.sizes) :
    ofJson? .document o.toJson = some o := by
  cases o with
  | parseInt type =>
    rw [ofJson?, toJson, choice?_variant rfl]
    simp [IntType.ofJson?_name]
  | enumOrdinal arity =>
    rw [ofJson?, toJson, choice?_variant rfl]
    simp [(isRecord_ordinal arity).record?_object, size?_ofNat (fits_singleton.mp h)]
  | enumValue values =>
    rw [ofJson?, toJson, choice?_variant rfl]
    simp [(isRecord_values values).record?_object, list?_ofList fun v _ => int64?_ofInt v]
  | call name =>
    rw [ofJson?, toJson, choice?_variant rfl]
    simp
  | _ => rfl

theorem wellFormed_toJson (o : Operator) : o.toJson.WellFormed := by
  cases o with
  | parseInt type => exact .variant rfl (.ofText _)
  | enumOrdinal arity =>
    exact .variant rfl ((isRecord_ordinal arity).wellFormed (by simp [WellFormed.ofNat]))
  | enumValue values =>
    refine .variant rfl ((isRecord_values values).wellFormed (List.forall_mem_singleton.mpr ?_))
    exact .ofList (fun v => .ofInt v.toInt) values
  | call name => exact .variant rfl (.ofText name)
  | _ => exact .ofText _

end Operator

namespace Operand

def sizes : Operand → List Nat
  | .step i => [i]
  | _ => []

theorem ofJson?_toJson (x : Operand) (h : Fits x.sizes) : ofJson? x.toJson = some x := by
  cases x with
  | current => rfl
  | const v =>
    rw [ofJson?, toJson, choice?_variant rfl]
    simp
  | range iv =>
    rw [ofJson?, toJson, choice?_variant rfl]
    simp [Interval.ofJson?_toJson]
  | step i =>
    rw [ofJson?, toJson, choice?_variant rfl]
    simp [size?_ofNat (fits_singleton.mp h)]

theorem wellFormed_toJson (x : Operand) : x.toJson.WellFormed := by
  cases x with
  | current => exact .ofText _
  | const v => exact .variant rfl (.ofInt v.toInt)
  | range iv => exact .variant rfl iv.wellFormed_toJson
  | step i => exact .variant rfl (.ofNat i)

end Operand

namespace Argument

def sizes : Argument → List Nat
  | .step i => [i]
  | _ => []

theorem ofJson?_toJson (x : Argument) (h : Fits x.sizes) : ofJson? x.toJson = some x := by
  cases x with
  | current => rfl
  | literal s =>
    rw [ofJson?, toJson, choice?_variant rfl]
    simp
  | int v =>
    rw [ofJson?, toJson, choice?_variant rfl]
    simp
  | step i =>
    rw [ofJson?, toJson, choice?_variant rfl]
    simp [size?_ofNat (fits_singleton.mp h)]

theorem wellFormed_toJson (x : Argument) : x.toJson.WellFormed := by
  cases x with
  | current => exact .ofText _
  | literal s => exact .variant rfl (.ofText s)
  | int v => exact .variant rfl (.ofInt v.toInt)
  | step i => exact .variant rfl (.ofNat i)

end Argument

/-! ## Sources and sinks -/

namespace SourceKind

theorem ofJson?_toJson (k : SourceKind) : ofJson? k.toJson = some k := by
  cases k with
  | text => rfl
  | integer type =>
    rw [ofJson?, toJson, choice?_variant rfl]
    simp [IntType.ofJson?_name]

theorem wellFormed_toJson (k : SourceKind) : k.toJson.WellFormed := by
  cases k with
  | text => exact .ofText _
  | integer type => exact .variant rfl (.ofText _)

end SourceKind

namespace Source

theorem isRecord (s : Source) :
    IsRecord ["name", "kind", "sensitive"]
      [("name", .ofText s.name), ("kind", s.kind.toJson), ("sensitive", .bool s.isSensitive)] :=
  ⟨rfl, by decide, by decide⟩

theorem ofJson?_toJson (s : Source) : ofJson? s.toJson = some s := by
  rw [ofJson?, toJson, s.isRecord.record?_object]
  simp [SourceKind.ofJson?_toJson, bool?]

theorem wellFormed_toJson (s : Source) : s.toJson.WellFormed :=
  s.isRecord.wellFormed
    (by simp [WellFormed.ofText, SourceKind.wellFormed_toJson, WellFormed.bool])

end Source

theorem Sink.ofJson?_name (s : Sink) : ofJson? (.ofText s.name) = some s :=
  unitChoice?_ofText (by cases s <;> decide) (by cases s <;> decide)

/-! ## Operations -/

namespace Operation

def sizes : Operation → List Nat
  | .numeric operator operands => operator.sizes ++ operands.flatMap Operand.sizes
  | .string _ arguments => arguments.flatMap Argument.sizes
  | .guard branch => [branch]
  | _ => []

theorem isRecord_numeric (operator : Operator) (operands : List Operand) :
    IsRecord ["kind", "operands"]
      [("kind", operator.toJson), ("operands", .ofList Operand.toJson operands)] :=
  ⟨rfl, by decide, by decide⟩

theorem isRecord_string (name : String) (arguments : List Argument) :
    IsRecord ["name", "args"]
      [("name", .ofText name), ("args", .ofList Argument.toJson arguments)] :=
  ⟨rfl, by decide, by decide⟩

theorem ofJson?_toJson (op : Operation) (h : Fits op.sizes) :
    ofJson? .document op.toJson = some op := by
  cases op with
  | source s =>
    rw [ofJson?, toJson, choice?_variant rfl]
    simp [Source.ofJson?_toJson]
  | numeric operator operands =>
    simp only [sizes, fits_append, fits_flatMap] at h
    have hoperands := list?_ofList fun x hx => Operand.ofJson?_toJson x (h.2 x hx)
    rw [ofJson?, toJson, choice?_variant rfl]
    simp [(isRecord_numeric operator operands).record?_object, operator.ofJson?_toJson h.1,
      hoperands]
  | string name arguments =>
    simp only [sizes, fits_flatMap] at h
    have harguments := list?_ofList fun x hx => Argument.ofJson?_toJson x (h x hx)
    rw [ofJson?, toJson, choice?_variant rfl]
    simp [(isRecord_string name arguments).record?_object, harguments]
  | guard branch =>
    rw [ofJson?, toJson, choice?_variant rfl]
    simp [size?_ofNat (fits_singleton.mp h)]
  | sink s =>
    rw [ofJson?, toJson, choice?_variant rfl]
    simp [Sink.ofJson?_name]

theorem wellFormed_toJson (op : Operation) : op.toJson.WellFormed := by
  cases op with
  | source s => exact .variant rfl s.wellFormed_toJson
  | numeric operator operands =>
    have hoperands := WellFormed.ofList Operand.wellFormed_toJson operands
    exact .variant rfl ((isRecord_numeric operator operands).wellFormed
      (by simp [operator.wellFormed_toJson, hoperands]))
  | string name arguments =>
    have harguments := WellFormed.ofList Argument.wellFormed_toJson arguments
    exact .variant rfl ((isRecord_string name arguments).wellFormed
      (by simp [WellFormed.ofText, harguments]))
  | guard branch => exact .variant rfl (.ofNat branch)
  | sink s => exact .variant rfl (.ofText _)

end Operation

/-! ## Branches -/

theorem Comparison.ofJson?_name (c : Comparison) : ofJson? (.ofText c.name) = some c :=
  unitChoice?_ofText (by cases c <;> decide) (by cases c <;> decide)

namespace Condition

theorem isRecord_compare (c : Comparison) (bound : Int64) :
    IsRecord ["op", "bound"] [("op", .ofText c.name), ("bound", .ofInt bound.toInt)] :=
  ⟨rfl, by decide, by decide⟩

theorem isRecord_pattern (pattern : String) (full : Bool) :
    IsRecord ["pattern", "full_match"]
      [("pattern", .ofText pattern), ("full_match", .bool full)] :=
  ⟨rfl, by decide, by decide⟩

theorem isRecord_allowList (values : TextSet) : IsRecord ["values"] [("values", values.toJson)] :=
  ⟨rfl, by decide, by decide⟩

theorem ofJson?_toJson (c : Condition) : ofJson? .document c.toJson = some c := by
  cases c with
  | compare c bound =>
    rw [ofJson?, toJson, choice?_variant rfl]
    simp [(isRecord_compare c bound).record?_object, Comparison.ofJson?_name]
  | matchesPattern pattern full =>
    rw [ofJson?, toJson, choice?_variant rfl]
    simp [(isRecord_pattern pattern full).record?_object, bool?]
  | inAllowList values =>
    rw [ofJson?, toJson, choice?_variant rfl]
    simp [(isRecord_allowList values).record?_object, TextSet.ofJson?_toJson]

theorem wellFormed_toJson (c : Condition) : c.toJson.WellFormed := by
  cases c with
  | compare c bound =>
    exact .variant rfl ((isRecord_compare c bound).wellFormed
      (by simp [WellFormed.ofText, WellFormed.ofInt]))
  | matchesPattern pattern full =>
    exact .variant rfl ((isRecord_pattern pattern full).wellFormed
      (by simp [WellFormed.ofText, WellFormed.bool]))
  | inAllowList values =>
    exact .variant rfl ((isRecord_allowList values).wellFormed
      (by simp [TextSet.wellFormed_toJson]))

end Condition

theorem GuardOutcome.ofJson?_name (o : GuardOutcome) : ofJson? (.ofText o.name) = some o :=
  unitChoice?_ofText (by cases o <;> decide) (by cases o <;> decide)

namespace Branch

def sizes (b : Branch) : List Nat := b.parent.toList

theorem isRecord (b : Branch) :
    IsRecord ["parent", "condition", "outcome"]
      [("parent", .ofOption .ofNat b.parent), ("condition", b.condition.toJson),
        ("outcome", .ofText b.outcome.name)] :=
  ⟨rfl, by decide, by decide⟩

theorem ofJson?_toJson (b : Branch) (h : Fits b.sizes) :
    ofJson? .document b.toJson = some b := by
  rw [ofJson?, toJson, b.isRecord.record?_object]
  simp [nullable?_size b.parent h, Condition.ofJson?_toJson, GuardOutcome.ofJson?_name]

theorem wellFormed_toJson (b : Branch) : b.toJson.WellFormed :=
  b.isRecord.wellFormed
    (by simp [WellFormed.ofOption WellFormed.ofNat, Condition.wellFormed_toJson,
      WellFormed.ofText])

end Branch

/-! ## Paths -/

namespace Step

def sizes (s : Step) : List Nat := s.op.sizes ++ s.branch.toList

/-- The branch of a step is the last member, if there is one. -/
theorem isRecord (s : Step) :
    IsRecord ["op", "branch"] (("op", s.op.toJson) :: branchMember s.branch) := by
  rcases s with ⟨op, _ | branch⟩ <;> exact ⟨rfl, by decide, by decide⟩

theorem ofJson?_toJson (s : Step) (h : Fits s.sizes) : ofJson? .document s.toJson = some s := by
  obtain ⟨hop, hbranch⟩ := fits_append.mp h
  rw [ofJson?, toJson, s.isRecord.record?_object]
  rcases s with ⟨op, _ | branch⟩
  · simp [branchMember, op.ofJson?_toJson hop]
  · have hsize : nullable? size? (.ofNat branch) = some (some branch) :=
      nullable?_size (some branch) hbranch
    simp [branchMember, op.ofJson?_toJson hop, hsize]

theorem wellFormed_toJson (s : Step) : s.toJson.WellFormed := by
  refine s.isRecord.wellFormed ?_
  rcases s with ⟨op, _ | branch⟩ <;>
    simp [branchMember, op.wellFormed_toJson, WellFormed.ofNat]

end Step

namespace Path

/-- The counts and indices of a path, which a persisted path keeps in 64 bits. -/
def sizes (p : Path) : List Nat := p.branches.flatMap Branch.sizes ++ p.steps.flatMap Step.sizes

theorem isRecord (p : Path) :
    IsRecord ["version", "branches", "steps"]
      [("version", .ofNat p.version), ("branches", .ofList Branch.toJson p.branches),
        ("steps", .ofList Step.toJson p.steps)] :=
  ⟨rfl, by decide, by decide⟩

theorem ofJson?_toJson (p : Path) (hversion : p.version ≤ Size.largestSmall)
    (hsizes : Fits p.sizes) : ofJson? .document p.toJson = some p := by
  simp only [sizes, fits_append, fits_flatMap] at hsizes
  have hbranches := list?_ofList fun b hb => Branch.ofJson?_toJson b (hsizes.1 b hb)
  have hsteps := list?_ofList fun s hs => Step.ofJson?_toJson s (hsizes.2 s hs)
  rw [ofJson?, toJson, p.isRecord.record?_object]
  simp [nat?_ofNat hversion, hbranches, hsteps]

theorem wellFormed_toJson (p : Path) : p.toJson.WellFormed := by
  have hbranches := WellFormed.ofList Branch.wellFormed_toJson p.branches
  have hsteps := WellFormed.ofList Step.wellFormed_toJson p.steps
  exact p.isRecord.wellFormed (by simp [WellFormed.ofNat, hbranches, hsteps])

/-- The text of a valid path is read as the same path, so every classifier says of the text what it
says of the path. -/
theorem ofText_toText {p : Path} (hvalid : p.validate = .ok ()) (hsizes : Fits p.sizes) :
    ofText p.toText = .ok p ∧ ∀ c : Classifier, c.classifyText p.toText = c.classify p := by
  have hversion : p.version ≤ Size.largestSmall := by
    rw [version_of_validate hvalid]
    decide
  have hread : ofText p.toText = .ok p := by
    rw [ofText, toText, p.wellFormed_toJson.parse?_pretty, Option.bind_some,
      p.ofJson?_toJson hversion hsizes]
    simp only [hvalid]
    rfl
  exact ⟨hread, fun c => by rw [Classifier.classifyText, hread]⟩

/-- A count from a menu, with a name that has to be escaped, the least integer and an interval with
inverted ends. -/
def escapedMenu : Path :=
  { version := pathVersion
    branches :=
      [{ parent := none, condition := .inAllowList (.ofList ["\"all\"", "9"]), outcome := .failed },
        { parent := some 0, condition := .compare .ge Int64.minValue, outcome := .passed }]
    steps :=
      [⟨.source { name := "menu\\\n\x01é", kind := .text, isSensitive := true }, none⟩,
        ⟨.guard 0, some 0⟩, ⟨.string "trim" [.current, .literal "\t", .int 3], some 0⟩,
        ⟨.numeric (.parseInt .i64) [.step 2], some 0⟩, ⟨.guard 1, some 1⟩,
        ⟨.numeric .max [.current, .const Int64.minValue, .range ⟨.finite 5, .negInf⟩], some 1⟩,
        ⟨.numeric (.enumOrdinal Size.largest) [], none⟩, ⟨.numeric (.enumValue [7, -7]) [], none⟩,
        ⟨.sink .loopBound, none⟩] }

theorem ofText_toText_escapedMenu :
    ofText escapedMenu.toText = .ok escapedMenu ∧
      ∀ c : Classifier, c.classifyText escapedMenu.toText = c.classify escapedMenu :=
  ofText_toText (by decide) (by decide)

end Path

end FlowSafety
