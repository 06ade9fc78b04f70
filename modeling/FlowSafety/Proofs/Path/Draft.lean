import FlowSafety.Path.Draft
import FlowSafety.Proofs.Path.Ancestry

/-!
# What drafts make

A draft is put together by calls that add a step, open a branch or close one. It knows the open
branches by the parents in its table only; here they are kept in a list beside it, and one invariant
ties the list, the table and the tags of the steps to each other.

* `Draft.Call`, `Draft.Nest` — the calls, and the branches that are open after them
* `Draft.Call.Fits` — what a step is asked to be when it is added
* `Draft.Matches` — the invariant, which every call keeps
* `Draft.valid_and_placed` — whatever is called, the path is valid, each of its steps is tagged with
  the innermost branch that was open when it was added, and lies in all branches that were
-/

namespace FlowSafety

theorem getElem?_concat_cases {α : Type} {xs : List α} {x y : α} {i : Nat}
    (h : (xs ++ [x])[i]? = some y) : xs[i]? = some y ∨ i = xs.length ∧ y = x := by
  have hlt := (List.getElem?_eq_some_iff.mp h).1
  rw [List.length_append, List.length_singleton] at hlt
  by_cases hi : i < xs.length
  · rw [List.getElem?_append_left hi] at h
    exact Or.inl h
  · have hlast : i = xs.length := by omega
    rw [hlast, List.getElem?_concat_length] at h
    exact Or.inr ⟨hlast, (Option.some.inj h).symm⟩

namespace Path

/-! ## Lineages -/

/-- Each of the branches lies in the next one, and the last of them in none. -/
def IsLineage (bs : List Branch) : List Nat → Prop
  | [] => True
  | i :: ids => (∃ b, bs[i]? = some b ∧ b.parent = ids.head?) ∧ IsLineage bs ids

variable {bs : List Branch} {ids : List Nat} {i : Nat}

theorem IsLineage.append (h : IsLineage bs ids) (more : List Branch) :
    IsLineage (bs ++ more) ids := by
  induction ids with
  | nil => trivial
  | cons i ids ih =>
    obtain ⟨⟨b, hb, hparent⟩, hrest⟩ := h
    have hlt : i < bs.length := (List.getElem?_eq_some_iff.mp hb).1
    exact ⟨⟨b, by rw [List.getElem?_append_left hlt, hb], hparent⟩, ih hrest⟩

theorem IsLineage.head_lt (h : IsLineage bs ids) (hi : ids.head? = some i) : i < bs.length := by
  cases ids with
  | nil => contradiction
  | cons j ids =>
    obtain rfl := Option.some.inj hi
    obtain ⟨⟨b, hb, -⟩, -⟩ := h
    exact (List.getElem?_eq_some_iff.mp hb).1

/-- What encloses the first branch of a lineage is outside of all branches or in the lineage. -/
theorem encloses_head_iff {p : Path} (hp : p.ParentsFirst) (h : IsLineage p.branches ids)
    (outer : Option Nat) :
    p.encloses outer ids.head? = true ↔ outer = none ∨ ∃ i ∈ ids, outer = some i := by
  cases outer with
  | none => exact ⟨fun _ => Or.inl rfl, fun _ => rfl⟩
  | some o =>
    induction ids with
    | nil => simp [not_encloses_outside]
    | cons i ids ih =>
      obtain ⟨⟨b, hb, hparent⟩, hrest⟩ := h
      by_cases hi : i = o
      · rw [List.head?_cons, hi, encloses_refl]
        exact ⟨fun _ => Or.inr ⟨o, List.mem_cons_self, rfl⟩, fun _ => rfl⟩
      · have haround : p.around (some i) = ids.head? := by
          rw [← hparent]
          show p.branches[i]?.bind (·.parent) = b.parent
          rw [hb, Option.bind_some]
        rw [List.head?_cons, encloses_around hp hi, haround, ih hrest]
        simp [Ne.symm hi]

end Path

namespace Path.Draft

/-! ## Calls -/

/-- A call on a draft. -/
inductive Call where
  | op (operation : Operation)
  | numeric (operator : Operator) (operands : List Operand)
  | call (name : String) (operands : List Operand)
  | string (name : String) (arguments : List Argument)
  | guard (condition : Condition)
  | guardFailed (condition : Condition)
  | leave

/-- What a call does to a draft: add a step, open a branch or close one. -/
inductive Move where
  | add (operation : Operation)
  | enter (condition : Condition) (outcome : GuardOutcome)
  | leave

namespace Call

def move : Call → Move
  | .op operation => .add operation
  | .numeric o operands => .add (.numeric o operands)
  | .call name operands => .add (.numeric (.call name) operands)
  | .string name arguments => .add (.string name arguments)
  | .guard condition => .enter condition .passed
  | .guardFailed condition => .enter condition .failed
  | .leave => .leave

end Call

/-- The draft after a call. -/
def apply (d : Draft) : Call → Draft
  | .op operation => d.op operation
  | .numeric o operands => d.numeric o operands
  | .call name operands => d.call name operands
  | .string name arguments => d.string name arguments
  | .guard condition => d.guard condition
  | .guardFailed condition => d.guardFailed condition
  | .leave => d.leave

/-- The draft after some calls. -/
def after (d : Draft) (calls : List Call) : Draft := calls.foldl apply d

theorem apply_eq (d : Draft) (c : Call) :
    d.apply c = match c.move with
      | .add operation => d.op operation
      | .enter condition outcome => d.enter condition outcome
      | .leave => d.leave := by
  cases c <;> rfl

/-! ## What is asked of calls -/

/-- An operator on the constants of an enumeration has some. -/
def HasConstants : Operator → Prop
  | .enumOrdinal arity => 0 < arity
  | .enumValue values => values ≠ []
  | _ => True

/-- The pattern of a condition, if it has one, can be searched for. -/
def Compiles : Condition → Prop
  | .matchesPattern pattern _ => Pattern.isValid pattern = true
  | _ => True

/-- What is added at a place is a numeric operation or a transform that refers to earlier steps
only. -/
def Move.Fits (index : Nat) : Move → Prop
  | .add (.numeric o operands) =>
    (∀ target, .step target ∈ operands → target < index) ∧ HasConstants o
  | .add (.string _ arguments) => ∀ target, .step target ∈ arguments → target < index
  | .add _ => False
  | .enter condition _ => Compiles condition
  | .leave => True

/-- The number of steps that a move adds. -/
def Move.size : Move → Nat
  | .leave => 0
  | _ => 1

/-- Every call fits the place of the step that it adds, the first of them the given one. -/
def Fit (index : Nat) : List Call → Prop
  | [] => True
  | c :: cs => c.move.Fits index ∧ Fit (index + c.move.size) cs

/-! ## Open branches -/

/-- How many branches were opened, and which of them are still open, innermost first. -/
structure Nest where
  opened : Nat
  around : List Nat

/-- An operation with the branches that are to be open around it, innermost first. -/
structure Placed where
  op : Operation
  around : List Nat

namespace Nest

/-- No branch was opened. -/
def outside : Nest := { opened := 0, around := [] }

def move (n : Nest) : Move → Nest
  | .add _ => n
  | .enter _ _ => { opened := n.opened + 1, around := n.opened :: n.around }
  | .leave => { n with around := n.around.tail }

/-- The step that a move is to add. -/
def placed (n : Nest) : Move → List Placed
  | .add operation => [⟨operation, n.around⟩]
  | .enter _ _ => [⟨.guard n.opened, n.opened :: n.around⟩]
  | .leave => []

def after (n : Nest) (calls : List Call) : Nest := calls.foldl (fun n c => n.move c.move) n

/-- The steps that some calls are to add. -/
def placedBy (n : Nest) : List Call → List Placed
  | [] => []
  | c :: cs => n.placed c.move ++ (n.move c.move).placedBy cs

end Nest

/-! ## The invariant -/

/-- What ties a draft to the branches that are open and to the steps as they were to be. -/
structure Matches (d : Draft) (n : Nest) (qs : List Placed) : Prop where
  opened : d.branches.length = n.opened
  current : d.current = n.around.head?
  lineage : IsLineage d.branches n.around
  parentsFirst : d.build.ParentsFirst
  start : ∃ src branch ss, d.steps = ⟨.source src, branch⟩ :: ss
  valid : ∀ (i : Nat) (s : Step), d.steps[i]? = some s →
    (∀ k, s.op ≠ .sink k) ∧ validateStep d.build i s = .ok ()
  placed : List.Forall₂ (fun s q =>
    s.op = q.op ∧ s.branch = q.around.head? ∧ IsLineage d.branches q.around) d.steps qs

namespace Matches

variable {d : Draft} {n : Nest} {qs : List Placed} {operation : Operation}

theorem ofSource (src : Source) : (ofSource src).Matches .outside [⟨.source src, []⟩] where
  opened := rfl
  current := rfl
  lineage := trivial
  parentsFirst := fun i b parent hb _ => by simp [Draft.ofSource, build] at hb
  start := ⟨src, none, [], rfl⟩
  valid := by
    intro i s hs
    cases i with
    | zero =>
      obtain rfl := Option.some.inj hs
      exact ⟨fun k => nofun, rfl⟩
    | succ i => simp [Draft.ofSource] at hs
  placed := .cons ⟨rfl, rfl, trivial⟩ .nil

/-- The step that is added lies in a branch of the table. -/
theorem current_lt (h : d.Matches n qs) {i : Nat} (hi : d.current = some i) :
    i < d.branches.length :=
  h.lineage.head_lt (h.current ▸ hi)

/-- Every step of a longer draft is valid if the one that was added is. -/
theorem valid_append (h : d.Matches n qs) {p : Path} {s : Step}
    (hbranches : d.branches <+: p.branches) (hs : validateStep p d.steps.length s = .ok ())
    {i : Nat} {s' : Step} (hs' : (d.steps ++ [s])[i]? = some s') :
    validateStep p i s' = .ok () := by
  rcases getElem?_concat_cases hs' with hold | ⟨rfl, rfl⟩
  · obtain ⟨hsink, hvalid⟩ := h.valid i s' hold
    exact validateStep_mono hbranches hsink hvalid
  · exact hs

/-- Adding a step keeps the invariant if its operation fits. -/
theorem op (h : d.Matches n qs) (hsink : ∀ k, operation ≠ .sink k)
    (hop : validateOperation d.build d.steps.length ⟨operation, d.current⟩ = .ok ()) :
    (d.op operation).Matches n (qs ++ [⟨operation, n.around⟩]) where
  opened := h.opened
  current := h.current
  lineage := h.lineage
  parentsFirst := h.parentsFirst
  start := by
    obtain ⟨src, branch, ss, hsteps⟩ := h.start
    exact ⟨src, branch, ss ++ [⟨operation, d.current⟩], by simp [Draft.op, hsteps]⟩
  valid := by
    intro i s hs
    have hstep : validateStep d.build d.steps.length ⟨operation, d.current⟩ = .ok () :=
      validateStep_eq_ok.mpr ⟨fun b hb => h.current_lt hb, hop⟩
    refine ⟨?_, h.valid_append (p := (d.op operation).build) (List.prefix_refl _)
      (validateStep_mono (p := d.build) (List.prefix_refl _) hsink hstep) hs⟩
    rcases getElem?_concat_cases hs with hold | ⟨-, rfl⟩
    · exact (h.valid i s hold).1
    · exact hsink
  placed := List.rel_append h.placed (.cons ⟨rfl, h.current, h.lineage⟩ .nil)

/-- So does opening a branch, before its guard is added. -/
theorem opening (h : d.Matches n qs) (condition : Condition) (outcome : GuardOutcome) :
    ({ d with
        branches := d.branches ++ [⟨d.current, condition, outcome⟩]
        current := some d.branches.length } : Draft).Matches
      { opened := n.opened + 1, around := n.opened :: n.around } qs where
  opened := by rw [List.length_append, List.length_singleton, h.opened]
  current := by rw [h.opened]; rfl
  lineage := by
    refine ⟨⟨⟨d.current, condition, outcome⟩, ?_, h.current⟩, h.lineage.append _⟩
    rw [← h.opened, List.getElem?_concat_length]
  parentsFirst := by
    intro i b parent hb hparent
    rcases getElem?_concat_cases hb with hold | ⟨rfl, rfl⟩
    · exact h.parentsFirst i b parent hold hparent
    · exact h.current_lt hparent
  start := h.start
  valid := by
    intro i s hs
    obtain ⟨hsink, hvalid⟩ := h.valid i s hs
    exact ⟨hsink, validateStep_mono (List.prefix_append _ _) hsink hvalid⟩
  placed := h.placed.imp fun s q ⟨hop, htag, hlineage⟩ => ⟨hop, htag, hlineage.append _⟩

theorem enter (h : d.Matches n qs) {condition : Condition} (hcondition : Compiles condition)
    (outcome : GuardOutcome) :
    (d.enter condition outcome).Matches
      { opened := n.opened + 1, around := n.opened :: n.around }
      (qs ++ [⟨.guard n.opened, n.opened :: n.around⟩]) := by
  have hcompiles (index : Nat) : validateCondition index condition = .ok () := by
    unfold validateCondition
    cases condition with
    | matchesPattern pattern full => exact if_pos hcondition
    | _ => rfl
  have hopen := h.opening condition outcome
  rw [← h.opened] at hopen ⊢
  refine hopen.op (fun k => nofun) ?_
  unfold validateOperation
  simp only [build, List.getElem?_concat_length, if_true]
  exact hcompiles _

theorem leave (h : d.Matches n qs) : d.leave.Matches { n with around := n.around.tail } qs where
  opened := h.opened
  current := by
    have hcurrent := h.current
    have hlineage := h.lineage
    cases haround : n.around with
    | nil =>
      rw [haround] at hcurrent
      simp only [Draft.leave, hcurrent]
      rfl
    | cons i around =>
      rw [haround] at hcurrent hlineage
      obtain ⟨⟨b, hb, hparent⟩, -⟩ := hlineage
      simp only [Draft.leave, hcurrent, List.head?_cons, Option.bind_some, hb, List.tail_cons]
      exact hparent
  lineage := by
    have hlineage := h.lineage
    cases haround : n.around with
    | nil => trivial
    | cons i around =>
      rw [haround] at hlineage
      exact hlineage.2
  parentsFirst := h.parentsFirst
  start := h.start
  valid := h.valid
  placed := h.placed

theorem validateOperator_of_hasConstants {o : Operator} (ho : HasConstants o) (index : Nat) :
    validateOperator index o = .ok () := by
  unfold validateOperator
  split
  · exact absurd ho (Nat.lt_irrefl 0)
  · exact absurd rfl ho
  · rfl

/-- An operation that fits its place is valid there. -/
theorem validateOperation_of_fits {p : Path} {index : Nat} {branch : Option Nat}
    (h : (Move.add operation).Fits index) :
    (∀ k, operation ≠ .sink k) ∧ validateOperation p index ⟨operation, branch⟩ = .ok () := by
  cases operation with
  | numeric o operands =>
    refine ⟨fun k => nofun, bind_eq_ok.mpr ⟨(), validateReferences_of_lt ?_, ?_⟩⟩
    · intro target htarget
      obtain ⟨operand, hoperand, he⟩ := List.mem_map.mp htarget
      cases operand with
      | step j =>
        obtain rfl := Option.some.inj he
        exact h.1 j hoperand
      | _ => contradiction
    · exact validateOperator_of_hasConstants h.2 index
  | string name arguments =>
    refine ⟨fun k => nofun, validateReferences_of_lt ?_⟩
    intro target htarget
    obtain ⟨argument, hargument, he⟩ := List.mem_map.mp htarget
    cases argument with
    | step j =>
      obtain rfl := Option.some.inj he
      exact h j hargument
    | _ => contradiction
  | source | guard | sink => exact h.elim

/-- Every call that fits keeps the invariant. -/
theorem apply (h : d.Matches n qs) {c : Call} (hfits : c.move.Fits d.steps.length) :
    (d.apply c).Matches (n.move c.move) (qs ++ n.placed c.move) := by
  rw [apply_eq]
  cases hmove : c.move with
  | add operation =>
    rw [hmove] at hfits
    obtain ⟨hsink, hop⟩ := validateOperation_of_fits hfits
    exact h.op hsink hop
  | enter condition outcome =>
    rw [hmove] at hfits
    exact h.enter hfits outcome
  | leave =>
    rw [Nest.placed, List.append_nil]
    exact h.leave

theorem length_steps_apply (d : Draft) (c : Call) :
    (d.apply c).steps.length = d.steps.length + c.move.size := by
  rw [apply_eq]
  cases c.move with
  | add operation => simp [Draft.op, Move.size]
  | enter condition outcome => simp [Draft.enter, Draft.op, Move.size]
  | leave => rfl

/-- So do any calls, one after another. -/
theorem after (h : d.Matches n qs) {calls : List Call} (hfit : Fit d.steps.length calls) :
    (d.after calls).Matches (n.after calls) (qs ++ n.placedBy calls) := by
  induction calls generalizing d n qs with
  | nil =>
    rw [Nest.placedBy, List.append_nil]
    exact h
  | cons c calls ih =>
    obtain ⟨hfits, hrest⟩ := hfit
    rw [← length_steps_apply] at hrest
    have hnext := ih (h.apply hfits) hrest
    rwa [List.append_assoc] at hnext

end Matches

/-! ## The path -/

/-- A step of a path is the one that it was to be: it is tagged with the innermost branch around it,
and lies in the branches around it and no others. -/
structure Stands (p : Path) (s : Step) (q : Placed) : Prop where
  op : s.op = q.op
  innermost : s.branch = q.around.head?
  inside : ∀ outer, p.encloses outer s.branch = true ↔
    outer = none ∨ ∃ i ∈ q.around, outer = some i

namespace Matches

variable {d : Draft} {n : Nest} {qs : List Placed}

theorem stands {p : Path} {s : Step} {q : Placed} (hp : p.ParentsFirst)
    (h : s.op = q.op ∧ s.branch = q.around.head? ∧ IsLineage p.branches q.around) :
    Stands p s q where
  op := h.1
  innermost := h.2.1
  inside := fun outer => by
    rw [h.2.1]
    exact encloses_head_iff hp h.2.2 outer

theorem validate_build (h : d.Matches n qs) : d.build.validate = .ok () :=
  validate_of_steps rfl h.parentsFirst h.start fun i s hs => (h.valid i s hs).2

theorem stands_build (h : d.Matches n qs) : List.Forall₂ (Stands d.build) d.build.steps qs :=
  h.placed.imp fun _ _ => stands h.parentsFirst

theorem validate_sink (h : d.Matches n qs) (k : Sink) : (d.sink k).validate = .ok () := by
  refine validate_of_steps rfl h.parentsFirst ?_ fun i s hs => ?_
  · obtain ⟨src, branch, ss, hsteps⟩ := h.start
    exact ⟨src, branch, ss ++ [⟨.sink k, d.current⟩], by simp [sink, build, Draft.op, hsteps]⟩
  · refine h.valid_append (List.prefix_refl _) ?_ hs
    refine validateStep_eq_ok.mpr ⟨fun b hb => h.current_lt hb, ?_⟩
    exact if_pos (by simp [sink, build, Draft.op])

theorem stands_sink (h : d.Matches n qs) (k : Sink) :
    List.Forall₂ (Stands (d.sink k)) (d.sink k).steps (qs ++ [⟨.sink k, n.around⟩]) := by
  have hplaced := List.rel_append h.placed
    (.cons (a := ⟨.sink k, d.current⟩) (b := ⟨.sink k, n.around⟩)
      ⟨rfl, h.current, h.lineage⟩ .nil)
  exact hplaced.imp fun _ _ => stands (p := d.sink k) h.parentsFirst

end Matches

/-- Whatever is called on the draft of a source, as long as every call fits its place, the path that
it makes is valid, with a sink at its end or without. Its steps are those that the calls add, in
order; each is tagged with the innermost branch that was open when it was added, and just the
branches that were open then, and the outside of all branches, enclose it. -/
theorem valid_and_placed {src : Source} {calls : List Call} (h : Fit 1 calls) :
    let d := (ofSource src).after calls
    let qs := ⟨.source src, []⟩ :: Nest.outside.placedBy calls
    d.build.validate = .ok () ∧ List.Forall₂ (Stands d.build) d.build.steps qs ∧
      ∀ k, (d.sink k).validate = .ok () ∧
        List.Forall₂ (Stands (d.sink k)) (d.sink k).steps
          (qs ++ [⟨.sink k, (Nest.outside.after calls).around⟩]) := by
  have hmatches := (Matches.ofSource src).after h
  exact ⟨hmatches.validate_build, hmatches.stands_build,
    fun k => ⟨hmatches.validate_sink k, hmatches.stands_sink k⟩⟩

/-- A width that is checked for digits, put together with an earlier one where a second check fails,
and parsed where a third one is passed. The last branch is closed twice. -/
def widthCalls : List Call :=
  [.guard (.matchesPattern "^[0-9]+$" true), .guardFailed (.inAllowList (.ofList ["0"])),
    .string "concat" [.step 0, .literal "px"], .leave, .guard (.inAllowList (.ofList ["7", "8"])),
    .call "Integer.parseInt" [.step 1], .leave, .leave, .leave,
    .op (.numeric (.enumValue [1, 2]) [.step 5])]

theorem valid_and_placed_width :
    Fit 1 widthCalls ∧
      let p := ((ofSource (.ofText "width")).after widthCalls).sink .loopBound
      p.validate = .ok () ∧
        List.Forall₂ (Stands p) p.steps
          [⟨.source (.ofText "width"), []⟩, ⟨.guard 0, [0]⟩, ⟨.guard 1, [1, 0]⟩,
            ⟨.string "concat" [.step 0, .literal "px"], [1, 0]⟩, ⟨.guard 2, [2, 0]⟩,
            ⟨.numeric (.call "Integer.parseInt") [.step 1], [2, 0]⟩,
            ⟨.numeric (.enumValue [1, 2]) [.step 5], []⟩, ⟨.sink .loopBound, []⟩] := by
  have hvalid : Pattern.isValid "^[0-9]+$" = true := by decide +kernel
  have hfit : Fit 1 widthCalls := by
    simp [Fit, widthCalls, Call.move, Move.Fits, Move.size, Compiles, HasConstants, hvalid]
  exact ⟨hfit, (valid_and_placed hfit).2.2 .loopBound⟩

end Path.Draft

end FlowSafety
