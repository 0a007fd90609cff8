/-
**The checks of a builder.**

A step of a builder begins with checks.  A check changes nothing, and it succeeds exactly when the
slots hold what is wanted there.  This module says so once for each of them, and what becomes of a
builder when only its forest is changed.

Main definitions:

* `Builder.expectArmsAfter` — the check of the arms after the first.

Main results:

* `Builder.expect_eq_ok_iff`, `Builder.expectAll_eq_ok_iff`, `Builder.expectArms_eq_ok_iff` — when
  a check succeeds;
* `Builder.stateOf_expect`, `Builder.stateOf_expectAll`, `Builder.stateOf_expectArms` — a check
  changes nothing;
* `Builder.onForest_eq_ok_iff`, `Builder.stateOf_onForest` — a change of the forest alone;
* `Builder.finish_eq_ok_iff` — what is handed over in the end.
-/

import SyntaxForest.Builder.Step
import SyntaxForest.Proofs.Forest.Fitting

set_option relaxedAutoImplicit false
set_option autoImplicit false

namespace SyntaxForest

open Forest

/-- A sequence of which all but the last entries are in a category. -/
theorem Forest.holdsAll_dropLast_cons {f : Forest} {accepts : Tag → Bool} {id : NodeId}
    {rest : List NodeId} : f.HoldsAll accepts (id :: rest).dropLast ↔
      (rest ≠ [] → f.Holds accepts id) ∧ f.HoldsAll accepts rest.dropLast := by
  cases rest with
  | nil => exact ⟨fun h => ⟨fun hne => absurd rfl hne, h⟩, fun h => h.2⟩
  | cons second rest =>
      rw [List.dropLast_cons_cons, HoldsAll, List.forall_mem_cons]
      exact and_congr_left' ⟨fun h _ => h, fun h => h (List.cons_ne_nil _ _)⟩

namespace Builder

variable {b c : Builder} {expected : String} {accepts : Tag → Bool} {id slot : NodeId}
  {ids arms : List NodeId}

/-! ### Slots -/

theorem expect_eq_ok_iff : expect expected accepts id b = .ok slot c ↔
    slot = id ∧ c = b ∧ b.forest.Holds accepts id := by
  constructor
  · intro h
    obtain ⟨rfl, rfl⟩ := expect_state h
    unfold expect at h
    split at h
    · cases h
    · next node hnode =>
        split at h
        · next haccepts => exact ⟨rfl, rfl, _, tag?_of_node? hnode, haccepts⟩
        · cases h
  · rintro ⟨rfl, rfl, tag, htag, haccepts⟩
    obtain ⟨node, hnode, rfl⟩ := tag?_eq_some_iff.1 htag
    simp only [expect, hnode, haccepts, if_true]

@[simp] theorem stateOf_expect (b : Builder) (expected : String) (accepts : Tag → Bool)
    (id : NodeId) : stateOf (expect expected accepts id b) = b := by
  unfold expect
  split
  · rfl
  · split <;> rfl

@[simp] theorem stateOf_expectOptional (b : Builder) (expected : String) (accepts : Tag → Bool)
    (id : Option NodeId) : stateOf (expectOptional expected accepts id b) = b := by
  cases id with
  | none => rfl
  | some id => exact stateOf_expect b expected accepts id

theorem expectAll_eq_ok_iff : expectAll expected accepts ids b = .ok () c ↔
    c = b ∧ b.forest.HoldsAll accepts ids := by
  induction ids with
  | nil =>
      constructor
      · intro h
        cases h
        exact ⟨rfl, fun slot hs => (nomatch hs)⟩
      · rintro ⟨rfl, -⟩
        rfl
  | cons id rest ih =>
      rw [expectAll, Step.bind_eq_ok_iff, HoldsAll, List.forall_mem_cons]
      constructor
      · rintro ⟨slot, d, hfirst, hrest⟩
        obtain ⟨rfl, rfl, held⟩ := expect_eq_ok_iff.1 hfirst
        obtain ⟨rfl, hall⟩ := ih.1 hrest
        exact ⟨rfl, held, hall⟩
      · rintro ⟨rfl, held, hall⟩
        exact ⟨id, c, expect_eq_ok_iff.2 ⟨rfl, rfl, held⟩, ih.2 ⟨rfl, hall⟩⟩

@[simp] theorem stateOf_expectAll (b : Builder) (expected : String) (accepts : Tag → Bool)
    (ids : List NodeId) : stateOf (expectAll expected accepts ids b) = b := by
  induction ids with
  | nil => rfl
  | cons id rest ih =>
      refine Step.stateOf_bind (P := (· = b)) (fun {refusal c} hr => ?_) fun {slot c} hr => ?_
      · have hsame := stateOf_expect b expected accepts id
        rw [hr] at hsame
        exact hsame
      · obtain ⟨-, rfl, -⟩ := expect_eq_ok_iff.1 hr
        exact ih

/-! ### Arms -/

/-- What is left of the check of the arms when the first is an arm. -/
def expectArmsAfter (rest : List NodeId) (arm : NodeId) : Action Unit := fun b =>
  if b.forest.tag? arm = some .defaultArm ∧ rest ≠ [] then .error (.defaultArmNotLast arm) b
  else expectArms rest b

/-- The check of the arms takes them one by one. -/
theorem expectArms_cons (arm : NodeId) (rest : List NodeId) :
    expectArms (arm :: rest) = expect "match arm" Tag.isArm arm >>= expectArmsAfter rest := by
  funext b
  change _ = EStateM.bind _ _ b
  unfold EStateM.bind
  rw [expectArms]
  dsimp only
  cases expect "match arm" Tag.isArm arm b <;> rfl

theorem expectArms_eq_ok_iff : expectArms arms b = .ok () c ↔
    c = b ∧ b.forest.HoldsAll Tag.isArm arms
      ∧ b.forest.HoldsAll (· ≠ .defaultArm) arms.dropLast := by
  induction arms with
  | nil =>
      constructor
      · intro h
        cases h
        exact ⟨rfl, fun slot hs => (nomatch hs), fun slot hs => (nomatch hs)⟩
      · rintro ⟨rfl, -⟩
        rfl
  | cons arm rest ih =>
      -- a default arm is refused only when another arm follows
      rw [expectArms_cons, Step.bind_eq_ok_iff, HoldsAll, List.forall_mem_cons,
        holdsAll_dropLast_cons]
      constructor
      · rintro ⟨slot, d, hfirst, hrest⟩
        obtain ⟨rfl, rfl, tag, htag, harm⟩ := expect_eq_ok_iff.1 hfirst
        unfold expectArmsAfter at hrest
        split at hrest
        · cases hrest
        · next hdefault =>
            obtain ⟨rfl, hall, hlast⟩ := ih.1 hrest
            refine ⟨rfl, ⟨⟨tag, htag, harm⟩, hall⟩, fun hne => ⟨tag, htag, ?_⟩, hlast⟩
            exact decide_eq_true fun h => hdefault ⟨h ▸ htag, hne⟩
      · rintro ⟨rfl, ⟨held, hall⟩, hfirst, hlast⟩
        refine ⟨arm, c, expect_eq_ok_iff.2 ⟨rfl, rfl, held⟩, ?_⟩
        rw [expectArmsAfter, if_neg, ih.2 ⟨rfl, hall, hlast⟩]
        rintro ⟨htag, hne⟩
        obtain ⟨tag, hfound, hother⟩ := hfirst hne
        rw [htag] at hfound
        cases hfound
        cases hother

@[simp] theorem stateOf_expectArms (b : Builder) (arms : List NodeId) :
    stateOf (expectArms arms b) = b := by
  induction arms with
  | nil => rfl
  | cons arm rest ih =>
      rw [expectArms_cons]
      refine Step.stateOf_bind (P := (· = b)) (fun {refusal c} hr => ?_) fun {slot c} hr => ?_
      · have hsame := stateOf_expect b "match arm" Tag.isArm arm
        rw [hr] at hsame
        exact hsame
      · obtain ⟨-, rfl, -⟩ := expect_eq_ok_iff.1 hr
        unfold expectArmsAfter
        split
        · rfl
        · exact ih

/-! ### Sources and frames -/

@[simp] theorem stateOf_readSource (b : Builder) (kind : LiteralKind) (span : Span) :
    stateOf (readSource kind span b) = b := by
  unfold readSource
  split
  · rfl
  · split <;> rfl

@[simp] theorem stateOf_nextLocal (b : Builder) : stateOf (nextLocal b) = b := by
  unfold nextLocal
  split <;> rfl

theorem endFunction_eq {count : Nat} {others : List Nat} (h : b.frames = count :: others) :
    endFunction b = .ok count { b with frames := others } := by
  simp only [endFunction, h]

theorem nextLocal_eq {count : Nat} {others : List Nat} (h : b.frames = count :: others) :
    nextLocal b = .ok ⟨count⟩ b := by
  simp only [nextLocal, h]

theorem countLocal_eq {count : Nat} {others : List Nat} (h : b.frames = count :: others) :
    countLocal b = .ok () { b with frames := (count + 1) :: others } := by
  cases b
  cases h
  rfl

theorem countLocal_outside (h : b.frames = []) : countLocal b = .ok () b := by
  cases b
  cases h
  rfl

/-! ### Changes of the forest -/

theorem onForest_eq_ok_iff {α : Type} {action : Forest.Action α} {answer : α} :
    onForest action b = .ok answer c ↔
      ∃ g, action b.forest = .ok answer g ∧ c = { b with forest := g } := by
  unfold onForest
  dsimp only
  cases action b.forest with
  | error refusal g => exact ⟨fun h => (nomatch h), fun ⟨_, h, _⟩ => (nomatch h)⟩
  | ok answer g =>
      constructor
      · intro h
        cases h
        exact ⟨g, rfl, rfl⟩
      · rintro ⟨g, h, rfl⟩
        cases h
        rfl

theorem onForest_error {α : Type} {action : Forest.Action α} {refusal : Refusal}
    (h : onForest action b = .error refusal c) :
    ∃ g, action b.forest = .error refusal g ∧ c = { b with forest := g } := by
  unfold onForest at h
  dsimp only at h
  split at h
  · cases h
  · next hg =>
      cases h
      exact ⟨_, hg, rfl⟩

theorem storeList_ok {what : String} {segment : Segment}
    (h : storeList ids what b = .ok segment c) :
    c.forest = b.forest.keep ids ∧ c.frames = b.frames := by
  obtain ⟨g, hg, rfl⟩ := onForest_eq_ok_iff.1 h
  exact ⟨(storeList_eq_ok_iff.1 hg).1, rfl⟩

/-- A node that is made is the last one, and it has no decorations yet. -/
theorem insert_ok {shape : Shape} {span : Span} (h : insert shape span b = .ok id c) :
    id = ⟨b.forest.size⟩ ∧ b.forest.Admits shape span
      ∧ c.forest = b.forest.add shape span none
      ∧ c.forest.node? id = some (Node.fresh shape span none) ∧ c.frames = b.frames := by
  obtain ⟨g, hg, rfl⟩ := onForest_eq_ok_iff.1 h
  obtain ⟨admits, rfl, rfl⟩ := insert_eq_ok_iff.1 hg
  exact ⟨rfl, admits, rfl, node?_add_self admits.notMem_children, rfl⟩

theorem insert_error {shape : Shape} {span : Span} {refusal : Refusal}
    (h : insert shape span b = .error refusal c) : c = b := by
  obtain ⟨g, hg, rfl⟩ := onForest_error h
  rw [insert_refused hg]

@[simp] theorem stateOf_onForest {α : Type} (b : Builder) (action : Forest.Action α) :
    stateOf (onForest action b) = { b with forest := stateOf (action b.forest) } := by
  unfold onForest
  dsimp only
  cases action b.forest <;> rfl

theorem decorate_of_ok {rule : Node → Except Refusal Node} {old new : Node}
    (here : b.forest.node? id = some old) (h : rule old = .ok new) :
    onForest (decorate id rule) b = .ok () { b with forest := b.forest.replace id new } :=
  onForest_eq_ok_iff.2 ⟨_, decorate_eq_ok_iff.2 ⟨old, new, here, h, rfl⟩, rfl⟩

/-! ### Steps and the document -/

theorem after_eq_stateOf (b : Builder) (step : Step) : after b step = stateOf (perform step b) := by
  unfold after
  cases perform step b <;> rfl

theorem finish_eq_ok_iff {directives : List NodeId} {document : Document} :
    finish b directives = .ok document ↔ ∃ id c, root directives b = .ok id c
      ∧ document = ⟨c.forest, id, c.names, c.parseErrors, c.file, c.source, none⟩ := by
  unfold finish
  cases root directives b with
  | error refusal c => exact ⟨fun h => (nomatch h), fun ⟨_, _, h, _⟩ => (nomatch h)⟩
  | ok id c =>
      constructor
      · intro h
        cases h
        exact ⟨id, c, rfl, rfl⟩
      · rintro ⟨id, c, h, rfl⟩
        cases h
        rfl

end Builder

end SyntaxForest
