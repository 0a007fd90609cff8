/-
**What the steps do to the open functions.**

A builder keeps a count for each open function.  Three steps matter to the counts: opening a
function puts a count in front, a match that is made takes the count in front as its slot and
counts on, and making a function takes the count away and gives the function that many local
variables.  Every other step leaves the counts alone.  A step that is refused makes no match and
opens no function, so all that it can do is to close some.

Main definitions:

* `Builder.Quiet` — no match is made, and no function is opened.

Main results:

* `Builder.quiet_after_plain`, `Builder.matching_error`, `Builder.function_error` — the steps that
  are quiet;
* `Builder.matching_ok` — **a match takes the innermost count as its slot and counts on**;
* `Builder.function_ok` — **a function takes the innermost count as the number of its locals.**
-/

import SyntaxForest.Proofs.Builder.Carrying
import SyntaxForest.Proofs.Forest.Steady

set_option relaxedAutoImplicit false
set_option autoImplicit false

namespace SyntaxForest

open Forest

theorem Forest.carries_steady : Forest.Carries (fun _ shape => shape.tag ≠ .matching) Steady where
  refl := Steady.refl
  trans := Steady.trans
  keep := Steady.keep
  add admits h _ := Steady.add _ h admits

namespace Builder

/-! ### Quiet steps -/

/-- No match is made, and no function is opened. -/
structure Quiet (b c : Builder) : Prop where
  steady : b.forest.Steady c.forest
  frames : c.frames <:+ b.frames

variable {α : Type} {b c : Builder} {id : NodeId} {ids arms : List NodeId} {refusal : Refusal}
  {name scrutinee : NodeId} {returnType body : Option NodeId} {parameters : List NodeId}
  {span : Span}

theorem quiet_onForest {action : Forest.Action α}
    (steady : ∀ f : Forest, f.Steady (stateOf (action f))) : Carried Quiet (onForest action) := by
  intro b
  rw [stateOf_onForest]
  exact ⟨steady b.forest, List.suffix_refl _⟩

/-- The common parts of the steps are quiet. -/
theorem carries_quiet : Carries Quiet where
  refl _ := ⟨Steady.refl _, List.suffix_refl _⟩
  trans first second := ⟨first.steady.trans second.steady, second.frames.trans first.frames⟩
  intern _ _ := ⟨Steady.refl _, List.suffix_refl _⟩
  insert _ h := quiet_onForest fun _ => carries_steady.insert fun _ => h
  storeList ids what := quiet_onForest fun _ => carries_steady.storeList ids what
  groupFunctions _ _ := quiet_onForest fun _ => carries_steady.groupFunctions fun _ _ _ => nofun
  parseError _ _ := ⟨Steady.refl _, List.suffix_refl _⟩

theorem quiet_after_plain {step : Step} (plain : step.IsPlain) (b : Builder) :
    Quiet b (after b step) := carries_quiet.after_plain plain b

theorem quiet_endFunction : Carried Quiet endFunction := by
  intro b
  unfold endFunction
  split
  · exact carries_quiet.refl b
  · next count frames hframes =>
      exact ⟨Steady.refl _, hframes ▸ List.suffix_cons count frames⟩

/-- Noting parentheses is quiet. -/
theorem quiet_parenthesized (id : NodeId) : Carried Quiet (parenthesized id) := by
  refine carries_quiet.bind (quiet_onForest fun f => ?_) fun _ => carries_quiet.check fun _ => rfl
  unfold decorate decorateWith
  cases hold : f.node? id with
  | none => exact Steady.refl f
  | some old => exact Steady.replace hold rfl rfl

/-- A step that starts quietly and is refused is quiet if the rest of it is. -/
theorem Carried.bind_error {action : Action α} {β : Type} {next : α → Action β}
    (first : Carried Quiet action) (h : (action >>= next) b = .error refusal c)
    (second : ∀ {answer d}, action b = .ok answer d → next answer d = .error refusal c →
      Quiet d c) : Quiet b c := by
  have hfirst := first b
  rcases Step.bind_eq_error_iff.1 h with hr | ⟨answer, d, hr, hnext⟩
  · rw [hr] at hfirst
    exact hfirst
  · rw [hr] at hfirst
    exact carries_quiet.trans hfirst (second hr hnext)

/-! ### Matches -/

/-- **A match takes the innermost count as its slot and counts on.** -/
theorem matching_ok (h : matching scrutinee arms span b = .ok id c) :
    ∃ count frames, b.frames = count :: frames ∧ c.frames = (count + 1) :: frames
      ∧ id = ⟨b.forest.size⟩ ∧ c.forest.size = b.forest.size + 1 ∧ b.forest.Lasts c.forest
      ∧ c.forest.slot? id = some ⟨count⟩ := by
  -- what is checked leaves the builder as it is
  obtain ⟨_, _, hscrutinee, hchecked⟩ := Step.bind_eq_ok_iff.1 h
  obtain ⟨-, rfl, -⟩ := expect_eq_ok_iff.1 hscrutinee
  obtain ⟨_, _, harms, hasked⟩ := Step.bind_eq_ok_iff.1 hchecked
  obtain ⟨rfl, -⟩ := expectArms_eq_ok_iff.1 harms
  obtain ⟨slot, _, hslot, hkept⟩ := Step.bind_eq_ok_iff.1 hasked
  cases hframes : Builder.frames _ with
  | nil =>
      rw [nextLocal_outside hframes] at hslot
      cases hslot
  | cons count frames =>
      rw [nextLocal_eq hframes] at hslot
      cases hslot
      obtain ⟨segment, d, hstored, hmade⟩ := Step.bind_eq_ok_iff.1 hkept
      obtain ⟨hkeep, hsame⟩ := storeList_ok hstored
      obtain ⟨_, e, hinserted, hcounted⟩ := Step.bind_eq_ok_iff.1 hmade
      obtain ⟨rfl, -, hadd, hnode, hsame'⟩ := insert_ok hinserted
      have hopen : e.frames = count :: frames := hsame'.trans (hsame.trans hframes)
      rw [Step.bind_of_ok (countLocal_eq hopen)] at hcounted
      cases hcounted
      have hlasts : d.forest.Lasts e.forest := hadd ▸ Lasts.add _ _ _ _
      refine ⟨count, frames, rfl, rfl, by rw [hkeep, size_keep],
        by rw [hadd, size_add, hkeep, size_keep], ?_, ?_⟩
      · exact (hkeep ▸ Lasts.keep _ arms : Lasts _ d.forest).trans hlasts
      · exact slot?_of_node? hnode

/-- A match that is refused leaves the counts alone. -/
theorem matching_error (h : matching scrutinee arms span b = .error refusal c) : Quiet b c := by
  refine (carries_quiet.prepares (.expect _ _ scrutinee)).bind_error h fun _ hchecked => ?_
  refine (carries_quiet.prepares (.expectArms arms)).bind_error hchecked fun _ hasked => ?_
  refine (carries_quiet.check stateOf_nextLocal).bind_error hasked fun _ hkept => ?_
  refine (carries_quiet.storeList arms _).bind_error hkept fun _ hmade => ?_
  rcases Step.bind_eq_error_iff.1 hmade with hrefused | ⟨_, _, _, hcounted⟩
  · -- a node that is refused changes nothing, whatever its shape
    rw [insert_error hrefused]
    exact carries_quiet.refl _
  · rcases Step.bind_eq_error_iff.1 hcounted with hrefused | ⟨_, _, _, hrefused⟩ <;> cases hrefused

/-! ### Functions -/

/-- A function that was just made is given its local variables. -/
theorem reserveLocals_fresh {segment : Segment} {slot part whole : NodeId} {count : Nat}
    (here : b.forest.node? id = some (Node.fresh (.function slot part segment whole) span none)) :
    onForest (decorate id (Node.reserveLocals count id)) b = .ok () { b with
      forest := b.forest.replace id ({ Node.fresh (.function slot part segment whole) span none with
        info := some ⟨Name.empty, List.replicate count TypeId.unresolved⟩ }) } :=
  decorate_of_ok here rfl

/-- **A function takes the innermost count as the number of its locals.** -/
theorem function_ok (h : function name returnType parameters body span b = .ok id c) :
    ∃ count, b.frames = count :: c.frames ∧ b.forest.Steady c.forest ∧ id = ⟨b.forest.size⟩
      ∧ c.forest.size = b.forest.size + 1
      ∧ c.forest.locals id = List.replicate count TypeId.unresolved := by
  -- what is checked leaves the builder as it is
  obtain ⟨_, _, hname, htyped⟩ := Step.bind_eq_ok_iff.1 h
  obtain ⟨-, rfl, -⟩ := expect_eq_ok_iff.1 hname
  obtain ⟨_, _, hreturn, hlisted⟩ := Step.bind_eq_ok_iff.1 htyped
  obtain rfl := Step.eq_of_check (stateOf_expectOptional _ _ _ returnType) hreturn
  obtain ⟨_, _, hparameters, hbodied⟩ := Step.bind_eq_ok_iff.1 hlisted
  obtain ⟨rfl, -⟩ := expectAll_eq_ok_iff.1 hparameters
  obtain ⟨_, b, hbody, hclosed⟩ := Step.bind_eq_ok_iff.1 hbodied
  obtain rfl := Step.eq_of_check (stateOf_expectOptional _ _ _ body) hbody
  cases hframes : b.frames with
  | nil =>
      obtain ⟨_, _, hcount, -⟩ := Step.bind_eq_ok_iff.1 hclosed
      simp only [endFunction, hframes] at hcount
      cases hcount
  | cons count frames =>
      rw [Step.bind_of_ok (endFunction_eq hframes)] at hclosed
      obtain ⟨segment, d, hstored, hmade⟩ := Step.bind_eq_ok_iff.1 hclosed
      obtain ⟨hkeep, hsame⟩ := storeList_ok hstored
      obtain ⟨_, e, hinserted, hreserved⟩ := Step.bind_eq_ok_iff.1 hmade
      obtain ⟨rfl, admits, hadd, hnode, hsame'⟩ := insert_ok hinserted
      rw [Step.bind_of_ok (reserveLocals_fresh hnode)] at hreserved
      cases hreserved
      have hsize : d.forest.size = b.forest.size := by rw [hkeep, size_keep]
      have hkept : b.forest.Steady d.forest := hkeep ▸ Steady.keep b.forest parameters
      have hadded : d.forest.Steady e.forest := hadd ▸ Steady.add none Tag.noConfusion admits
      refine ⟨count, ?_, (hkept.trans hadded).replace_new hnode (Nat.le_of_eq hsize.symm) rfl,
        by rw [hsize], by rw [size_replace, hadd, size_add, hsize], ?_⟩
      · rw [hsame', hsame]
      · rw [locals_of_node? (node?_replace_self hnode)]
        rfl

/-- A function that is refused makes no match, and it may have been closed. -/
theorem function_error (h : function name returnType parameters body span b = .error refusal c) :
    Quiet b c := by
  have made : ∀ name returnType parameters body, Carried Quiet
      (insert (.function name returnType parameters body) span) := fun _ _ _ _ =>
    carries_quiet.insert span nofun
  have checks : ∀ {α : Type} {action : Action α}, Prepares action → Carried Quiet action :=
    carries_quiet.prepares
  refine (checks (.expect _ _ name)).bind_error h fun _ htyped => ?_
  refine (checks (.expectOptional _ _ returnType)).bind_error htyped fun _ hlisted => ?_
  refine (checks (.expectAll _ _ parameters)).bind_error hlisted fun _ hbodied => ?_
  refine (checks (.expectOptional _ _ body)).bind_error hbodied fun _ hclosed => ?_
  refine quiet_endFunction.bind_error hclosed fun _ hkept => ?_
  refine (carries_quiet.storeList parameters _).bind_error hkept fun _ hmade => ?_
  refine (made _ _ _ _).bind_error hmade fun _ hreserved => ?_
  rcases Step.bind_eq_error_iff.1 hreserved with hrefused | ⟨_, _, _, hrefused⟩
  · obtain ⟨g, hg, rfl⟩ := onForest_error hrefused
    rw [decorate_refused hg]
    exact carries_quiet.refl _
  · cases hrefused

end Builder

end SyntaxForest
