/-
**Which refusals close a function.**

A step that makes a function closes the innermost open one as soon as its slots are found in order.
What can still refuse it comes later: its parameters may be too many to be kept, and one of its
children may have an owner.  So a refusal closes a function exactly when the slots were in order,
and then the local variables that the matches inside had asked for are lost, and the next function
that is made is taken for the one around.  Every other refusal leaves the open functions and their
counts alone.

Main definitions:

* `Builder.SlotsHold` — the slots of a function hold what is wanted there;
* `Builder.Step.Closes` — a step that closes a function, whether it makes it or not;
* `Builder.closeFunction` — what is left of the making of a function after the checks.

Main results:

* `Builder.function_error_cases` — a function is refused by its slots or after it was closed;
* `Builder.frames_of_refused` — **a step that is refused closes the innermost function if its slots
  were in order, and otherwise leaves the open functions alone**;
* `Builder.frames_of_owned_name` — a function that is lost with its second name.
-/

import SyntaxForest.Proofs.Builder.Residue

set_option relaxedAutoImplicit false
set_option autoImplicit false

namespace SyntaxForest

open Forest SyntaxForest.Step

namespace Builder

variable {b c : Builder} {refusal : Refusal} {name : NodeId} {returnType body : Option NodeId}
  {parameters : List NodeId} {span : Span}

/-! ### The checks of a function -/

/-- The slots of a function hold what is wanted there. -/
structure SlotsHold (f : Forest) (name : NodeId) (returnType : Option NodeId)
    (parameters : List NodeId) (body : Option NodeId) : Prop where
  name : f.Holds (· = .nameIdentifier) name
  returnType : ∀ id ∈ returnType, f.Holds (· = .typeReference) id
  parameters : f.HoldsAll (· = .parameter) parameters
  body : ∀ id ∈ body, f.Holds Tag.isExpression id

/-- A step that closes a function: a function is open, and the slots of the one to make hold what
is wanted there. -/
def Step.Closes (b : Builder) : Step → Prop
  | .function name returnType parameters body _ =>
      b.frames ≠ [] ∧ SlotsHold b.forest name returnType parameters body
  | _ => False

theorem expectOptional_eq_ok_iff {expected : String} {accepts : Tag → Bool} {id : Option NodeId}
    {slot : NodeId} : expectOptional expected accepts id b = .ok slot c ↔
      slot = id.getD NodeId.absent ∧ c = b ∧ ∀ found ∈ id, b.forest.Holds accepts found := by
  cases id with
  | none =>
      constructor
      · intro h
        cases h
        exact ⟨rfl, rfl, fun _ hfound => (nomatch hfound)⟩
      · rintro ⟨rfl, rfl, -⟩
        rfl
  | some id =>
      rw [expectOptional, expect_eq_ok_iff]
      simp only [Option.mem_def, Option.some.injEq, forall_eq', Option.getD_some]

/-- What is left of the making of a function after the checks. -/
def closeFunction (name returnType : NodeId) (parameters : List NodeId) (body : NodeId)
    (span : Span) : Action NodeId := do
  let count ← endFunction
  let segment ← storeList parameters "parameters"
  let id ← insert (.function name returnType segment body) span
  onForest (decorate id (Node.reserveLocals count id))
  return id

/-- After a check that is refused nothing has changed, and after one that succeeds comes the next
step. -/
theorem error_of_check {α β : Type} {action : Action α} {next : α → Action β} {holds : Prop}
    {answer : α} (same : stateOf (action b) = b)
    (ok : ∀ {found d}, action b = .ok found d ↔ found = answer ∧ d = b ∧ holds)
    (h : (action >>= next) b = .error refusal c) :
    (c = b ∧ ¬holds) ∨ (holds ∧ next answer b = .error refusal c) := by
  rcases bind_eq_error_iff.1 h with hr | ⟨found, d, hr, hnext⟩
  · refine Or.inl ⟨?_, fun held => ?_⟩
    · rw [hr] at same
      exact same
    · rw [ok.2 ⟨rfl, rfl, held⟩] at hr
      cases hr
  · obtain ⟨rfl, rfl, held⟩ := ok.1 hr
    exact Or.inr ⟨held, hnext⟩

/-- **A function is refused by its slots or after it was closed.** -/
theorem function_error_cases
    (h : function name returnType parameters body span b = .error refusal c) :
    (c = b ∧ ¬SlotsHold b.forest name returnType parameters body)
      ∨ (SlotsHold b.forest name returnType parameters body
        ∧ closeFunction name (returnType.getD NodeId.absent) parameters
            (body.getD NodeId.absent) span b = .error refusal c) := by
  rcases error_of_check (stateOf_expect ..) expect_eq_ok_iff h with ⟨rfl, hnot⟩ | ⟨hname, h⟩
  · exact Or.inl ⟨rfl, fun slots => hnot slots.name⟩
  rcases error_of_check (stateOf_expectOptional ..) expectOptional_eq_ok_iff h
    with ⟨rfl, hnot⟩ | ⟨hreturn, h⟩
  · exact Or.inl ⟨rfl, fun slots => hnot slots.returnType⟩
  have hall : ∀ {answer d}, expectAll "ParameterNode" (· = .parameter) parameters b = .ok answer d
      ↔ answer = () ∧ d = b ∧ b.forest.HoldsAll (· = .parameter) parameters :=
    expectAll_eq_ok_iff.trans (and_iff_right rfl).symm
  rcases error_of_check (stateOf_expectAll ..) hall h with ⟨rfl, hnot⟩ | ⟨hparameters, h⟩
  · exact Or.inl ⟨rfl, fun slots => hnot slots.parameters⟩
  rcases error_of_check (stateOf_expectOptional ..) expectOptional_eq_ok_iff h
    with ⟨rfl, hnot⟩ | ⟨hbody, h⟩
  · exact Or.inl ⟨rfl, fun slots => hnot slots.body⟩
  exact Or.inr ⟨⟨hname, hreturn, hparameters, hbody⟩, h⟩

/-! ### The open functions -/

theorem sparing_frames : Sparing fun b c => c.frames = b.frames where
  refl _ := rfl
  trans first second := second.trans first
  intern _ _ := rfl
  storeList ids what b := by rw [storeList, stateOf_onForest]

/-- Once its slots are in order, a function that is refused stays closed. -/
theorem frames_of_closeFunction {name returnType body : NodeId}
    (h : closeFunction name returnType parameters body span b = .error refusal c) :
    c.frames = b.frames.tail := by
  cases hframes : b.frames with
  | nil =>
      have hrefused : endFunction b = .error .unbalancedFunction b := by
        simp only [endFunction, hframes]
      rcases bind_eq_error_iff.1 h with hr | ⟨_, _, hr, -⟩
      · rw [hrefused] at hr
        cases hr
        exact hframes
      · rw [hrefused] at hr
        cases hr
  | cons count frames =>
      rw [closeFunction, bind_of_ok (endFunction_eq hframes)] at h
      exact sparing_frames.madeFunction name returnType parameters body span count _ _ _ h

/-- **A step that is refused closes the innermost function if it makes a function whose slots were
in order, and otherwise leaves the open functions alone.**  In the one case the next function that
is made takes the number of its local variables from the function around the one that is lost; in
the other it closes the function that was open before, and is given the local variables that were
wanted in it.  A root that is refused leaves the open functions alone. -/
theorem frames_of_refused (b : Builder) :
    (∀ step refusal c, perform step b = .error refusal c →
      (step.Closes b → ∃ count, b.frames = count :: c.frames)
        ∧ (¬step.Closes b → c.frames = b.frames
          ∧ ∀ name returnType parameters body span id d,
            function name returnType parameters body span c = .ok id d →
            ∃ count, b.frames = count :: d.frames
              ∧ d.forest.locals id = List.replicate count TypeId.unresolved))
      ∧ ∀ directives refusal c, root directives b = .error refusal c → c.frames = b.frames := by
  refine ⟨fun step refusal c h => ?_, fun directives refusal c h =>
    sparing_frames.makes (.root directives) b refusal c h⟩
  -- a function is the only step that closes one, so it is the only one to be opened
  have frames : (step.Closes b → c.frames = b.frames.tail)
      ∧ (¬step.Closes b → c.frames = b.frames) := by
    cases step with
    | function name returnType parameters body span =>
        rcases function_error_cases (map_eq_error_iff.1 h) with ⟨rfl, hnot⟩ | ⟨slots, hclosed⟩
        · exact ⟨fun closes => absurd closes.2 hnot, fun _ => rfl⟩
        · have htail := frames_of_closeFunction hclosed
          refine ⟨fun _ => htail, fun hnot => ?_⟩
          have hnone : b.frames = [] := by_contra fun hsome => hnot ⟨hsome, slots⟩
          rw [htail, hnone, List.tail_nil]
    | _ =>
        exact ⟨False.elim, fun _ =>
          sparing_frames.perform _ (fun _ _ _ _ _ hstep => by cases hstep) b refusal c h⟩
  refine ⟨fun closes => ?_, fun hnot => ?_⟩
  · have hsome : b.frames ≠ [] := by
      cases step with
      | function => exact closes.1
      | _ => exact closes.elim
    obtain ⟨count, others, hframes⟩ := List.exists_cons_of_ne_nil hsome
    exact ⟨count, by rw [frames.1 closes, hframes, List.tail_cons]⟩
  · refine ⟨frames.2 hnot, fun _ _ _ _ _ id d hmade => ?_⟩
    obtain ⟨count, hcount, -, -, -, hlocals⟩ := function_ok hmade
    exact ⟨count, (frames.2 hnot).symm.trans hcount, hlocals⟩

/-- A builder in which a function was made and another one is open. -/
def reopened : Builder :=
  runAll (start NameTable.fresh "" none)
    [.name "f" ⟨0, 0⟩, .beginFunction, .function ⟨0⟩ none [] none ⟨0, 0⟩, .beginFunction]

/-- A function whose name belongs to another is refused and lost: the open functions are not what
they were, and a second try with a name of its own finds none to close, where it would have found
one without the first. -/
theorem frames_of_owned_name : ∃ refusal c,
    perform (.function ⟨0⟩ none [] none ⟨0, 0⟩) reopened = .error refusal c
      ∧ c.frames ≠ reopened.frames
      ∧ (∃ d, perform (.function ⟨2⟩ none [] none ⟨0, 0⟩) (after c (.name "g" ⟨0, 0⟩))
        = .error .unbalancedFunction d)
      ∧ ∃ id d, perform (.function ⟨2⟩ none [] none ⟨0, 0⟩) (after reopened (.name "g" ⟨0, 0⟩))
        = .ok id d :=
  ⟨_, _, rfl, by decide, ⟨_, rfl⟩, ⟨_, _, rfl⟩⟩

/-- Both sorts of refusals: the name that belongs to another function closes the one that is open,
and a name that is no identifier leaves it open, so that it can be made with another name. -/
theorem frames_of_second_try : reopened.frames = [0]
    ∧ (∃ refusal c, perform (.function ⟨0⟩ none [] none ⟨0, 0⟩) reopened = .error refusal c
      ∧ ∃ count, reopened.frames = count :: c.frames)
    ∧ ∃ refusal c, perform (.function ⟨1⟩ none [] none ⟨0, 0⟩) reopened = .error refusal c
      ∧ c.frames = reopened.frames := by
  refine ⟨rfl, ?_, ?_⟩
  · obtain ⟨refusal, c, refused⟩ : ∃ refusal c,
        perform (.function ⟨0⟩ none [] none ⟨0, 0⟩) reopened = .error refusal c := ⟨_, _, rfl⟩
    have slots : SlotsHold reopened.forest ⟨0⟩ none [] none :=
      ⟨⟨_, rfl, rfl⟩, fun _ h => (nomatch h), fun _ h => (nomatch h), fun _ h => (nomatch h)⟩
    exact ⟨refusal, c, refused,
      ((frames_of_refused reopened).1 _ refusal c refused).1 ⟨by decide, slots⟩⟩
  · obtain ⟨refusal, c, refused⟩ : ∃ refusal c,
        perform (.function ⟨1⟩ none [] none ⟨0, 0⟩) reopened = .error refusal c := ⟨_, _, rfl⟩
    refine ⟨refusal, c, refused, (((frames_of_refused reopened).1 _ refusal c refused).2 ?_).1⟩
    rintro ⟨-, slots⟩
    obtain ⟨tag, htag, haccepts⟩ := slots.name
    cases htag
    cases haccepts

end Builder

end SyntaxForest
