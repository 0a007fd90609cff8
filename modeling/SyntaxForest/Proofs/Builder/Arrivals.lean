/-
**What a step of a builder adds and leaves.**

A step of a builder makes one node at most, in the end: everything before checks slots, numbers
names and keeps sequences.  So a step that is refused has made no node, and one that is done has
made the node that it answers, right after the others.  The step that notes parentheses is the
exception: it answers the node that it was given.  No step touches the contents of a node that was
there.

Main definitions:

* `Builder.ids` — the nodes of a builder, in their order;
* `Builder.Step.made` — the node that a step has made, by its answer.

Main results:

* `Builder.Makes.enlists` — a step that makes one node appends it;
* `Builder.enlists_perform` — **a step appends the node that it answers**;
* `Builder.evolvesBy_after`, `Builder.evolvesBy_finish` — **neither a step nor the end of a run
  changes the contents of a node.**
-/

import SyntaxForest.Proofs.Builder.Frames
import SyntaxForest.Proofs.Builder.Lasting
import SyntaxForest.Proofs.Document.Requests
import SyntaxForest.Proofs.Forest.Arrivals

set_option relaxedAutoImplicit false
set_option autoImplicit false

namespace SyntaxForest

namespace Builder

open Forest SyntaxForest.Step

/-- The nodes of a builder, in their order. -/
def ids (b : Builder) : List NodeId := b.forest.ids

/-- The nodes that a step has made, by its answer; what notes parentheses answers a node that was
there. -/
def Step.made : Step → Option NodeId → List NodeId
  | .parenthesized _, _ => []
  | _, answer => answer.toList

variable {α : Type} {b c : Builder} {rewrites : NodeId → Shape → Shape → Prop}

/-! ### One node at most -/

theorem enlists_onForest {made : α → List NodeId} {action : Forest.Action α}
    (enlists : Enlists Forest.ids made action) : Enlists ids made (onForest action) := by
  refine .of_cases (fun {b answer c} h => ?_) fun {b refusal c} h => ?_
  · obtain ⟨g, hg, rfl⟩ := onForest_eq_ok_iff.1 h
    exact enlists.of_ok hg
  · obtain ⟨g, hg, rfl⟩ := onForest_error h
    exact enlists.of_error hg

/-- What comes before a node is made makes no node. -/
theorem Prepares.enlists {action : Action α} (prepares : Prepares action) :
    Enlists ids (fun _ => []) action := by
  cases prepares with
  | check same => exact .of_same fun b => congrArg ids (same b)
  | intern text => exact .of_same fun b => rfl
  | storeList kept what => exact enlists_onForest (enlists_storeList kept what)

/-- **A step that makes one node appends it.** -/
theorem Makes.enlists {action : Action NodeId} (makes : Makes action) :
    Enlists ids (fun id => [id]) action := by
  induction makes with
  | insert span _ => exact enlists_onForest (enlists_insert _ span)
  | groupFunctions name members => exact enlists_onForest (enlists_groupFunctions name members)
  | refuse refusal => exact .of_cases (fun h => nomatch h) fun h => by cases h; rfl
  | bind first _ ih => exact first.enlists.bind ih

theorem enlists_endFunction : Enlists ids (fun _ => []) endFunction := by
  refine .of_same fun b => ?_
  unfold endFunction
  split <;> rfl

/-- A function is made after it was closed; that it is given its local variables is never
refused. -/
theorem enlists_function (name : NodeId) (returnType : Option NodeId) (parameters : List NodeId)
    (body : Option NodeId) (span : Span) :
    Enlists ids (fun id => [id]) (function name returnType parameters body span) := by
  refine (Prepares.expect _ _ name).enlists.bind fun _ => ?_
  refine (Prepares.expectOptional _ _ returnType).enlists.bind fun _ => ?_
  refine (Prepares.expectAll _ _ parameters).enlists.bind fun _ => ?_
  refine (Prepares.expectOptional _ _ body).enlists.bind fun _ => ?_
  refine enlists_endFunction.bind fun count => ?_
  refine (Prepares.storeList parameters _).enlists.bind fun segment => ?_
  refine (enlists_onForest (enlists_insert _ span)).before fun {b id c} hmade => ?_
  obtain ⟨-, -, -, hnode, -⟩ := insert_ok hmade
  refine ⟨_, Step.bind_of_ok (reserveLocals_fresh hnode), ?_⟩
  exact ids_of_size (size_replace c.forest id _)

/-- A match is made before its local variable is counted, which is never refused. -/
theorem enlists_matching (scrutinee : NodeId) (arms : List NodeId) (span : Span) :
    Enlists ids (fun id => [id]) (matching scrutinee arms span) := by
  refine (Prepares.expect _ _ scrutinee).enlists.bind fun _ => ?_
  refine (Prepares.expectArms arms).enlists.bind fun _ => ?_
  refine (Prepares.check stateOf_nextLocal).enlists.bind fun slot => ?_
  refine (Prepares.storeList arms _).enlists.bind fun segment => ?_
  refine (enlists_onForest (enlists_insert _ span)).before fun {b id c} _ => ?_
  cases hframes : c.frames with
  | nil => exact ⟨_, Step.bind_of_ok (countLocal_outside hframes), rfl⟩
  | cons count frames => exact ⟨_, Step.bind_of_ok (countLocal_eq hframes), rfl⟩

theorem enlists_parenthesized (id : NodeId) :
    Enlists ids (fun _ => []) (parenthesized id) := by
  refine (enlists_onForest (enlists_decorate id _)).bind fun _ => ?_
  exact .of_same fun b => rfl

/-- **A step appends the node that it answers,** if it makes one, and nothing if it is refused. -/
theorem enlists_perform (step : Step) : Enlists ids step.made (perform step) := by
  by_cases plain : step.IsPlain
  · rcases makes_of_plain plain with ⟨action, makes, hperform⟩ | ⟨error, rfl⟩
    · rw [hperform]
      refine makes.enlists.map fun id => ?_
      cases step with
      | parenthesized _ => exact plain.elim
      | _ => rfl
    · have noted : Enlists ids (fun _ => []) (parseError error) := .of_same fun b => rfl
      exact noted.map fun _ => rfl
  · cases step with
    | beginFunction =>
        have opened : Enlists ids (fun _ => []) beginFunction := .of_same fun b => rfl
        exact opened.map fun _ => rfl
    | function name returnType parameters body span =>
        exact (enlists_function name returnType parameters body span).map fun _ => rfl
    | matching scrutinee arms span =>
        exact (enlists_matching scrutinee arms span).map fun _ => rfl
    | parenthesized id => exact (enlists_parenthesized id).map fun _ => rfl
    | _ => exact absurd True.intro plain

/-- **The document that is handed over has its root after the other nodes.** -/
theorem ids_of_finish {directives : List NodeId} {document : Document}
    (h : finish b directives = .ok document) :
    document.forest.ids = b.ids ++ [document.root] := by
  obtain ⟨id, c, hroot, rfl⟩ := finish_eq_ok_iff.1 h
  exact (Makes.root directives).enlists.of_ok hroot

/-! ### No contents change -/

/-- **A step leaves all contents.** -/
theorem evolvesBy_after (b : Builder) (step : Step) :
    b.forest.EvolvesBy rewrites (after b step).forest := by
  by_cases noted : ∃ id, step = .parenthesized id
  · obtain ⟨id, rfl⟩ := noted
    rw [after_eq_stateOf, perform, SyntaxForest.Step.stateOf_map]
    have decorated : Carried (fun b c => b.forest.EvolvesBy rewrites c.forest)
        (onForest (decorate id Node.setParenthesized)) :=
      carried_onForest (EvolvesBy.setParenthesized id)
    refine SyntaxForest.Step.stateOf_bind
      (P := fun c : Builder => b.forest.EvolvesBy rewrites c.forest) (fun {refusal c} hr => ?_)
      fun {answer c} hr => ?_
    · have hb := decorated b
      rwa [hr] at hb
    · have hb := decorated b
      rwa [hr] at hb
  · have keeps := keeps_after (S := fun _ => True) b step fun id h _ => noted ⟨id, h⟩
    refine .of_same (reaches_after b step).evolves fun {id node} hnode => ?_
    obtain ⟨later, hlater, hshape, -⟩ := keeps.node True.intro hnode
    exact ⟨later, hlater, hshape⟩

/-- So does the end of a run. -/
theorem evolvesBy_finish {directives : List NodeId} {document : Document}
    (h : finish b directives = .ok document) :
    b.forest.EvolvesBy rewrites document.forest := by
  obtain ⟨last, reaches, hforest, -⟩ := reaches_finish h
  obtain ⟨keeps, -⟩ := keeps_finish (S := fun _ => True) h
  refine .of_same (hforest ▸ reaches.evolves) fun {id node} hnode => ?_
  obtain ⟨later, hlater, hshape, -⟩ := keeps.node True.intro hnode
  exact ⟨later, hlater, hshape⟩

end Builder

end SyntaxForest
