import FlowSafety.Proofs.Text.Transforms
import FlowSafety.Proofs.Walk.Summary

/-!
# Injection verdicts are sound

A run of the program along a path over texts produces one marked text for every step. If the verdict
on a path that ends in a sink with forbidden characters is safe, no run brings a forbidden character
to the sink that an attacker may have chosen.

Matching a text against a pattern is left open. All that is needed of it is that the shape of each
pattern on the path is right about the texts that pass.

* `TextRun` — the marked texts of the steps in one run
* `Walk.covers_textRun` — the walk along the path covers every run
-/

namespace FlowSafety

/-! ## Runs -/

/-- The marked texts of the steps in one run along a path. The run starts with any text, all of it
chosen by an attacker, and passes the checks on the branches that the path enters. A transform whose
name is not known can return any text. -/
inductive TextRun (p : Path) (c : Catalogue) (accepts : String → Bool → List Char → Prop) :
    List Step → List (List Marked) → Prop
  | source {src : Source} {branch : Option Nat} {cs : List Char} : src.kind = .text →
      TextRun p c accepts [⟨.source src, branch⟩] [Marked.chosen cs]
  | guard {ss : List Step} {xs : List (List Marked)} {id : Nat} {branch : Option Nat} {b : Branch}
      {pattern : String} {full : Bool} {x : List Marked} : TextRun p c accepts ss xs →
      p.branches[id]? = some b → b.condition = .matchesPattern pattern full →
      xs.getLast? = some x → (b.outcome = .passed ↔ accepts pattern full (x.map (·.char))) →
      TextRun p c accepts (ss ++ [⟨.guard id, branch⟩]) (xs ++ [x])
  | unknown {ss : List Step} {xs : List (List Marked)} {name : String}
      {arguments : List Argument} {branch : Option Nat} {cs : List Char} :
      TextRun p c accepts ss xs → c.get? name = none →
      TextRun p c accepts (ss ++ [⟨.string name arguments, branch⟩]) (xs ++ [Marked.chosen cs])
  | transform {ss : List Step} {xs : List (List Marked)} {name : String}
      {arguments : List Argument} {branch : Option Nat} {effect : TextEffect}
      {x y : List Marked} : TextRun p c accepts ss xs → c.get? name = some (.text effect) →
      xs.getLast? = some x → effect.Yields xs arguments x y →
      TextRun p c accepts (ss ++ [⟨.string name arguments, branch⟩]) (xs ++ [y])
  | sink {ss : List Step} {xs : List (List Marked)} {k : Sink} {branch : Option Nat}
      {x : List Marked} : TextRun p c accepts ss xs → xs.getLast? = some x →
      TextRun p c accepts (ss ++ [⟨.sink k, branch⟩]) (xs ++ [x])

/-- The shape of every pattern in the branch table is right about the texts that pass a check
against the pattern. -/
def Path.ShapesHold (p : Path) (accepts : String → Bool → List Char → Prop) : Prop :=
  ∀ b ∈ p.branches, ∀ pattern full shape, b.condition = .matchesPattern pattern full →
    Pattern.shape? pattern full = some shape →
    ∀ cs, accepts pattern full cs → ∀ ch ∈ cs, shape.chars.contains ch = true

/-! ## Guards -/

/-- Entering a branch keeps a text covered that took the same way at the guard. -/
theorem Branch.refine_covers {b : Branch} {pattern why : String} {full : Bool} {v v' : Value}
    {x : List Marked} (hb : b.condition = .matchesPattern pattern full)
    (h : b.refine v = .ok (v', why)) (hv : v.CoversText x)
    (hx : b.outcome = .passed → ∀ shape, Pattern.shape? pattern full = some shape →
      ∀ m ∈ x, shape.chars.contains m.char = true) : v'.CoversText x := by
  obtain ⟨g, rfl, hg⟩ := hv.exists_guarantee
  obtain ⟨g', rfl, hrefined⟩ := refine_text_eq_ok h
  cases hrefined with
  | kept _ => exact hg
  | listed _ hlist =>
    rw [hb] at hlist
    contradiction
  | matched hpassed hb' hmatching =>
    rw [hb] at hb'
    cases hb'
    rcases TextGuarantee.matching_eq_ok hmatching hg.values with ⟨shape, hshape, rfl⟩ | rfl
    · refine ⟨rfl, Charset.isValueFree_confined hg.valueFree, ?_⟩
      intro m hm hattacker
      exact (hg.admits m hm hattacker).confined (hx hpassed shape hshape m hm)
    · exact hg

namespace Walk

variable {p : Path} {c : Catalogue} {w : Walk} {ss : List Step} {xs : List (List Marked)}
  {accepts : String → Bool → List Char → Prop}

/-! ## Coverage -/

/-- The value of a transform covers the text that the transform returns in the run. -/
theorem coversText_of_renews {name : String} {arguments : List Argument} {index : Nat}
    {effect : TextEffect} {v v' : Value} {x y : List Marked}
    (hw : w.Covers Value.CoversText xs) (hv : v.CoversText x)
    (hrenew : Renews p c index w (.string name arguments) v v')
    (heffect : c.get? name = some (.text effect)) (hy : effect.Yields xs arguments x y) :
    v'.CoversText y := by
  cases hrenew with
  | forgottenText _ => exact TextGuarantee.covers_unconstrained y
  | transformed heffect' hpieces hg =>
    obtain rfl := Effect.text.inj (Option.some.inj (heffect.symm.trans heffect'))
    exact TextEffect.evaluate_sound hw (forall₂_of_mapM_eq_ok hpieces) hv hy hg

/-- The walk along a path covers every run along it. -/
theorem covers_textRun (hrun : TextRun p c accepts ss xs) (hw : Reached p c ss w)
    (hshapes : p.ShapesHold accepts) : w.Covers Value.CoversText xs := by
  -- every case splits the walk at its last step, which is the step that the run was extended by
  induction hrun generalizing w with
  | @source src branch cs hkind =>
    refine .of_source hw ?_
    rw [hkind]
    exact TextGuarantee.covers_unconstrained _
  | @guard ss xs id branch b pattern full x _ hb hcondition hlast hpassed ih =>
    obtain ⟨w₀, hw₀, hstep⟩ := hw.of_concat
    refine (ih hw₀).step hstep ?_ ?_
    · rintro src ⟨⟩
    · intro v v' hv hrenew
      cases hrenew with
      | beneath => exact hv x hlast
      | entered hb' hrefine =>
        obtain rfl := Option.some.inj (hb.symm.trans hb')
        refine Branch.refine_covers hcondition hrefine (hv x hlast) ?_
        intro houtcome shape hshape m hm
        have haccepts : accepts pattern full (x.map (·.char)) := hpassed.mp houtcome
        exact hshapes b (List.mem_of_getElem? hb) pattern full shape hcondition hshape _
          haccepts m.char (List.mem_map_of_mem hm)
  | @unknown ss xs name arguments branch cs _ hnone ih =>
    obtain ⟨w₀, hw₀, hstep⟩ := hw.of_concat
    refine (ih hw₀).step hstep ?_ ?_
    · rintro src ⟨⟩
    · intro v v' hv hrenew
      cases hrenew with
      | forgottenText _ => exact TextGuarantee.covers_unconstrained _
      | transformed heffect _ _ =>
        rw [hnone] at heffect
        contradiction
  | @transform ss xs name arguments branch effect x y _ heffect hlast hy ih =>
    obtain ⟨w₀, hw₀, hstep⟩ := hw.of_concat
    have hcov := ih hw₀
    refine hcov.step hstep ?_ ?_
    · rintro src ⟨⟩
    · intro v v' hv hrenew
      exact coversText_of_renews hcov (hv x hlast) hrenew heffect hy
  | sink _ hlast ih =>
    obtain ⟨w₀, hw₀, hstep⟩ := hw.of_concat
    exact (ih hw₀).keep hlast hstep ⟨_, rfl⟩

end Walk

/-! ## Verdicts -/

/-- Whenever the verdict at a sink that forbids characters is safe, none of these that an attacker
may have chosen is in the text that reaches the sink, in every run along the path. -/
theorem attacker_not_forbidden {c : Classifier} {p : Path}
    {accepts : String → Bool → List Char → Prop} {k : Sink} {forbidden : CharClass}
    {xs : List (List Marked)} {x : List Marked} (hshapes : p.ShapesHold accepts)
    (hsink : p.sink? = some k) (hforbidden : k.forbidden? = some forbidden)
    (hsafe : (c.classify p).outcome = .safe) (hrun : TextRun p c.catalogue accepts p.steps xs)
    (hx : xs.getLast? = some x) :
    ∀ m ∈ x, m.attacker = true → forbidden.contains m.char = false := by
  intro m hm hattacker
  obtain ⟨s, _, hs, -⟩ := Classifier.classify_outcome_safe.mp hsafe
  obtain ⟨-, why, hcheck⟩ := Classifier.injection_safe_of_classify_safe hs hsink hforbidden hsafe
  obtain ⟨w, hw, l, hl, hlevel, -⟩ := Path.exists_level_of_summarize hs
  have hcov := Walk.covers_textRun hrun hw hshapes
  have hcovers : l.value.CoversText x := hcov.current x hx l hl
  rw [hlevel] at hcovers
  obtain ⟨g, hvalue, hg⟩ := hcovers.exists_guarantee
  rw [hvalue] at hcheck
  exact Sink.not_forbidden_of_check hcheck (hg.admits m hm hattacker)

/-- A tag that is written in bold. -/
def boldTag : Path :=
  { version := pathVersion
    branches :=
      [{ parent := none, condition := .matchesPattern "<[a-z]+>" true, outcome := .passed }]
    steps :=
      [⟨.source (.ofText "tag"), none⟩, ⟨.guard 0, some 0⟩, ⟨.string "escapeHtml" [], some 0⟩,
        ⟨.string "concat" [.literal "<b>", .current, .literal "</b>"], some 0⟩,
        ⟨.sink .htmlBody, none⟩] }

def writing : Classifier :=
  .ofEntries 10 [("concat", .text (.passThrough none)), ("escapeHtml", .text (.escape .html))]

/-- The texts that match `<[a-z]+>`. -/
def acceptsTag (pattern : String) (full : Bool) (cs : List Char) : Prop :=
  pattern = "<[a-z]+>" ∧ full = true ∧
    ∃ name, name ≠ [] ∧ (∀ c ∈ name, c ∈ "abcdefghijklmnopqrstuvwxyz".toList) ∧
      cs = '<' :: name ++ ['>']

theorem shapesHold_boldTag : boldTag.ShapesHold acceptsTag := by
  rintro b hb pattern full shape - hshape cs ⟨rfl, rfl, name, -, hname, rfl⟩ ch hch
  have hchars : Pattern.shape? "<[a-z]+>" true =
      some ⟨(CharClass.ofText "<>").union (.ofRange 'a' 'z'), none⟩ := by
    decide
  obtain rfl := Option.some.inj (hshape.symm.trans hchars)
  have hletters : "abcdefghijklmnopqrstuvwxyz".toList.all
      ((CharClass.ofText "<>").union (.ofRange 'a' 'z')).contains = true := by
    rw [String.toList_ofList]
    decide
  rcases List.mem_append.mp hch with hch | hch
  · rcases List.mem_cons.mp hch with rfl | hch
    · decide
    · exact List.all_eq_true.mp hletters ch (hname ch hch)
  · obtain rfl := List.mem_singleton.mp hch
    decide

/-- The tag `<i>` after the escape, and in bold. -/
def escapedTag : List (List Marked) :=
  [Marked.written "&lt;".toList, [⟨'i', true⟩], Marked.written "&gt;".toList]

def boldedTag : List (List Marked) :=
  [Marked.written "<b>".toList, escapedTag.flatten, Marked.written "</b>".toList]

theorem textRun_boldTag :
    TextRun boldTag writing.catalogue acceptsTag boldTag.steps
      [Marked.chosen ['<', 'i', '>'], Marked.chosen ['<', 'i', '>'], escapedTag.flatten,
        boldedTag.flatten, boldedTag.flatten] := by
  have hsource : TextRun boldTag writing.catalogue acceptsTag (boldTag.steps.take 1)
      [Marked.chosen ['<', 'i', '>']] :=
    .source rfl
  have hguard : TextRun boldTag writing.catalogue acceptsTag (boldTag.steps.take 2)
      [Marked.chosen ['<', 'i', '>'], Marked.chosen ['<', 'i', '>']] :=
    .guard hsource rfl rfl rfl
      ⟨fun _ => ⟨rfl, rfl, ['i'], by simp, by simp, rfl⟩, fun _ => rfl⟩
  have hescape : TextRun boldTag writing.catalogue acceptsTag (boldTag.steps.take 3)
      [Marked.chosen ['<', 'i', '>'], Marked.chosen ['<', 'i', '>'], escapedTag.flatten] :=
    .transform hguard rfl rfl
      (.escape (.cons .replaced (.cons (.kept fun _ => by decide) (.cons .replaced .nil))))
  have hbold : TextRun boldTag writing.catalogue acceptsTag (boldTag.steps.take 4)
      [Marked.chosen ['<', 'i', '>'], Marked.chosen ['<', 'i', '>'], escapedTag.flatten,
        boldedTag.flatten] :=
    .transform hescape rfl rfl
      (.passThrough (.cons .literal (.cons (.current (List.infix_refl _)) (.cons .literal .nil)))
        (List.infix_refl _))
  exact .sink hbold rfl

theorem attacker_not_forbidden_boldTag :
    (writing.classify boldTag).outcome = .safe ∧
      ∀ m ∈ boldedTag.flatten, m.attacker = true →
        (CharClass.ofText "<>&\"'").contains m.char = false := by
  have hsafe : (writing.classify boldTag).outcome = .safe := by
    decide +kernel
  exact ⟨hsafe, attacker_not_forbidden shapesHold_boldTag rfl rfl hsafe textRun_boldTag rfl⟩

end FlowSafety
