/-
**What a refused edit leaves behind.**

Most edits that are refused change nothing at all.  A group of overloads is the exception: its
members are kept in the store before the group is checked, so a group that is refused leaves them
there.  No node sees what is left, because the segments of all nodes lie inside the store as it was
before.  That needs the promise that the makers of a forest give: where a segment lies beyond the
store, what is left behind may become part of it.

Main definitions:

* `Step.Spares` — a relation between the states around a step that is refused;
* `Forest.Littered` — a forest with some entries more at the end of its store, which no node sees.

Main results:

* `Step.Spares.bind`, `Step.Spares.before` — steps in a row;
* `Forest.littered_keep` — what is kept behind the segments of all nodes is seen by none;
* `Edit.spares_run` — **an edit that is refused leaves a sequence at most.**
-/

import SyntaxForest.Proofs.Forest.History

set_option relaxedAutoImplicit false
set_option autoImplicit false

namespace SyntaxForest

namespace Step

variable {ε σ α β : Type} {R : σ → σ → Prop} {step : EStateM ε σ α} {next : α → EStateM ε σ β}

/-- If the step is refused, the state that it leaves is related to the one before. -/
def Spares (R : σ → σ → Prop) (step : EStateM ε σ α) : Prop :=
  ∀ s e t, step s = .error e t → R s t

namespace Spares

theorem of_stateOf (carried : ∀ s, R s (stateOf (step s))) : Spares R step := by
  intro s e t h
  have hcarried := carried s
  rwa [h] at hcarried

/-- A step after one that leaves related states. -/
theorem bind (trans : ∀ {s t u}, R s t → R t u → R s u) (first : ∀ s, R s (stateOf (step s)))
    (second : ∀ answer, Spares R (next answer)) : Spares R (step >>= next) := by
  intro s e u h
  have hfirst := first s
  rcases Step.bind_eq_error_iff.1 h with hstep | ⟨answer, t, hstep, hnext⟩
  · rwa [hstep] at hfirst
  · rw [hstep] at hfirst
    exact trans hfirst (second answer _ _ _ hnext)

/-- A step before one that is never refused. -/
theorem before (first : Spares R step)
    (later : ∀ {s answer t}, step s = .ok answer t → ∃ last u, next answer t = .ok last u) :
    Spares R (step >>= next) := by
  intro s e u h
  rcases Step.bind_eq_error_iff.1 h with hstep | ⟨answer, t, hstep, hnext⟩
  · exact first _ _ _ hstep
  · obtain ⟨last, v, hlast⟩ := later hstep
    rw [hlast] at hnext
    cases hnext

theorem map {make : α → β} (spares : Spares R step) : Spares R (make <$> step) :=
  fun _ _ _ h => spares _ _ _ (Step.map_eq_error_iff.1 h)

end Spares

end Step

open Step

namespace Forest

variable {f g h : Forest} {id : NodeId}

/-! ### What is left behind -/

/-- A sequence is kept, and nothing else is done. -/
def KeepsMore (f g : Forest) : Prop := ∃ ids, g = f.keep ids

theorem KeepsMore.refl (f : Forest) : f.KeepsMore f := ⟨[], (keep_nil f).symm⟩

theorem KeepsMore.trans (first : f.KeepsMore g) (second : g.KeepsMore h) : f.KeepsMore h := by
  obtain ⟨ids, rfl⟩ := first
  obtain ⟨others, rfl⟩ := second
  refine ⟨ids ++ others, ?_⟩
  rw [keep, keep, keep, grown_grown]

/-- A forest with some entries more at the end of its store, which no node sees. -/
structure Littered (f g : Forest) : Prop where
  nodes : g.nodes = f.nodes
  /-- What is left stands at the end of the store. -/
  lists : ∃ ids : List NodeId, g.lists = f.lists ++ ids
  children : ∀ id, g.children? id = f.children? id
  /-- What was kept reads the same. -/
  list : ∀ s : Segment, s.Inside f.lists → g.list s = f.list s
  segments : ∀ id node, f.node? id = some node →
    ∀ s ∈ node.shape.segments, g.list s = f.list s

/-- **What is kept behind the segments of all nodes is seen by none.** -/
theorem littered_keep (stored : ∀ {id node}, f.node? id = some node → node.shape.Stored f.lists)
    (ids : List NodeId) : f.Littered (f.keep ids) where
  nodes := rfl
  lists := ⟨ids, rfl⟩
  children id := by
    rw [children?, children?, node?_keep]
    cases hnode : f.node? id with
    | none => rfl
    | some node => exact congrArg some (Shape.children_append (stored hnode) ids)
  list s inside := Segment.entries_append inside ids
  segments id node hnode s hs := Segment.entries_append (stored hnode s hs) ids

theorem KeepsMore.littered (more : f.KeepsMore g) (tree : f.Treelike) : f.Littered g := by
  obtain ⟨ids, rfl⟩ := more
  exact littered_keep tree.stored ids

/-! ### Edits -/

/-- A change that leaves the forest alone when it is refused. -/
theorem spares_of_refused {α : Type} {action : Action α}
    (refused : ∀ {f g refusal}, action f = .error refusal g → g = f) :
    Spares KeepsMore action := by
  intro f refusal g h
  rw [refused h]
  exact .refl f

/-- A group that is refused may leave its members in the store. -/
theorem spares_groupFunctions (name : Name) (members : List NodeId) :
    Spares KeepsMore (groupFunctions name members) := by
  cases members with
  | nil => exact spares_of_refused fun h => by cases h; rfl
  | cons first rest =>
      refine .bind KeepsMore.trans (fun f => ?_)
        fun segment => spares_of_refused insertDerived_refused
      cases hr : storeList (first :: rest) "overload members" f with
      | ok segment g => exact ⟨_, (storeList_eq_ok_iff.1 hr).1⟩
      | error refusal g => exact spares_of_refused storeList_refused _ _ _ hr

theorem Grown.edit {α : Type} {action : Action α} {make : α → Edit.Answer}
    (grown : f.Grown) (edit : Edit) (same : edit.run = make <$> action)
    (stored : Change.Stored f (.edit edit)) : (stateOf (action f)).Grown := by
  have later := grown.after stored
  rwa [Change.after, Edit.after_eq_stateOf, same, stateOf_map] at later

/-- An edit that is refused has a place in a history, whether it keeps the promise or not. -/
theorem Grown.of_refused {edit : Edit} {refusal : Refusal} (grown : f.Grown)
    (refused : edit.run f = .error refusal g) : g.Grown := by
  have later : (Change.Stored f (.edit edit)) → g.Grown := fun stored => by
    have hlater := grown.after stored
    rwa [Change.after, Edit.after_eq_stateOf, refused] at hlater
  cases edit with
  | insert shape span => exact insert_refused (map_eq_error_iff.1 refused) ▸ grown
  | insertDerived shape donor => exact insertDerived_refused (map_eq_error_iff.1 refused) ▸ grown
  | _ => exact later True.intro

end Forest

open Forest in
/-- **An edit that is refused leaves a sequence at most.** -/
theorem Edit.spares_run (edit : Edit) : Spares KeepsMore edit.run := by
  cases edit with
  | insert shape span => exact (spares_of_refused insert_refused).map
  | insertDerived shape donor => exact (spares_of_refused insertDerived_refused).map
  | storeList ids what => exact (spares_of_refused storeList_refused).map
  | specialize base closure => exact (spares_of_refused insertDerived_refused).map
  | groupFunctions name members => exact (spares_groupFunctions name members).map
  | allocateLocal function type => exact (spares_of_refused decorateWith_refused).map
  | _ => exact (spares_of_refused decorate_refused).map

end SyntaxForest
