/-
**What changes are made of.**

Edits are acts, but regrouping does more: it exchanges the contents of a document, and when it fails
it drops what it has made.  None of this asks for a forest of trees.  Whatever the forest, and
whatever node numbers and segments its makers hand over, a change is a few moves: acts, exchanges of
the contents of a document for others, and falling back to a mark.  So what holds along each move
holds along all changes.

That regrouping has no other parts is said for any relation between the forest before and the forest
after, so that it can be used again where one has to know which document it is.

Main definitions:

* `Forest.Moves` — a forest that comes from another by acts, exchanges and fallbacks;
* `Forest.Attempt.Carried` — an attempt that leaves a forest related to the one before;
* `Forest.Regroups` — a relation that the parts of regrouping carry on.

Main results:

* `Forest.Carries.regroupEach`, `Forest.Regroups.regroupDocument` — **what its parts carry on,
  regrouping carries on**;
* `Forest.Moves.tag?`, `Forest.Moves.regroups` — no move changes the sort of a node, and regrouping
  is moves;
* `Forest.moves_after`, `Forest.moves_runAll` — **all changes are moves, refused or not.**
-/

import SyntaxForest.Proofs.Forest.Fitting
import SyntaxForest.Proofs.Forest.History

set_option relaxedAutoImplicit false
set_option autoImplicit false

namespace SyntaxForest

namespace Forest

/-- A forest that comes from another by moves. -/
inductive Moves : Forest → Forest → Prop
  | refl (f : Forest) : Moves f f
  | act {f g h : Forest} (moves : Moves f g) (act : Act (fun _ _ => True) g h) : Moves f h
  /-- A document gives up its directives and owns others. -/
  | exchange {f g : Forest} {root : NodeId} {node : Node} {directives : Segment}
      (moves : Moves f g) (here : g.node? root = some node)
      (document : node.shape.tag = .document)
      (accepts : g.Accepts root node (.document directives)) :
      Moves f (g.reshape root node (.document directives))
  /-- What was made since a mark is dropped. -/
  | rollback {f g h : Forest} (moves : Moves f g) (later : Moves g h) :
      Moves f (h.rollback g.mark)

variable {f g h : Forest} {id root : NodeId} {tag : Tag} {segment : Segment}

namespace Moves

theorem trans (first : f.Moves g) (second : g.Moves h) : f.Moves h := by
  induction second with
  | refl g => exact first
  | act _ act ih => exact (ih first).act act
  | exchange _ here document accepts ih => exact (ih first).exchange here document accepts
  | rollback _ later ih _ => exact (ih first).rollback later

theorem acts (acts : Acts (fun _ _ => True) f g) : f.Moves g := by
  induction acts with
  | refl => exact refl f
  | tail _ act ih => exact ih.act act

/-- No move changes the sort of a node. -/
theorem tag? (moves : f.Moves g) (htag : f.tag? id = some tag) : g.tag? id = some tag := by
  induction moves with
  | refl f => exact htag
  | act _ act ih => exact act.continues.tag? (ih htag)
  | @exchange f g root node directives _ here document accepts ih =>
      obtain ⟨old, hold, rfl⟩ := tag?_eq_some_iff.1 (ih htag)
      obtain ⟨later, hlater, hshape⟩ := exists_node?_reshape hold
      rw [tag?_of_node? hlater, hshape]
      split
      · next hid =>
          rw [hid, here] at hold
          cases hold
          rw [document]
          rfl
      · rfl
  | @rollback f g h moves later ih ih' =>
      have hbefore := ih htag
      obtain ⟨old, hold, -⟩ := tag?_eq_some_iff.1 hbefore
      obtain ⟨last, hlast, rfl⟩ := tag?_eq_some_iff.1 (ih' hbefore)
      obtain ⟨parent, hparent, -⟩ :=
        exists_node?_rollback (m := g.mark) (lt_size_of_node? hold) hlast
      rw [tag?_of_node? hparent]

end Moves

/-! ### Attempts -/

variable {allowed : Forest → Shape → Prop} {R : Forest → Forest → Prop}

/-- An attempt leaves a forest that is related to the one before, whether it fails or not. -/
def Attempt.Carried {α : Type} (R : Forest → Forest → Prop) (attempt : Attempt α) : Prop :=
  ∀ f : Forest, R f (stateOf (attempt f))

namespace Carries

variable {α β : Type}

theorem bind {attempt : Attempt α} {next : α → Attempt β} (carries : Carries allowed R)
    (first : attempt.Carried R) (second : ∀ answer, (next answer).Carried R) :
    Attempt.Carried R (attempt >>= next) := by
  intro f
  have hfirst := first f
  refine Step.stateOf_bind (fun {failure g} hr => ?_) fun {answer g} hr => ?_
  · rw [hr] at hfirst
    exact hfirst
  · rw [hr] at hfirst
    exact carries.trans hfirst (second answer g)

theorem pure (carries : Carries allowed R) (answer : α) :
    Attempt.Carried R (Pure.pure answer) := fun f => carries.refl f

theorem tagOf (carries : Carries allowed R) (id : NodeId) : (tagOf id).Carried R := by
  intro f
  unfold Forest.tagOf
  split <;> exact carries.refl f

theorem ask (carries : Carries allowed R) (question : Forest → Except Refusal α) :
    (ask question).Carried R := by
  intro f
  unfold Forest.ask
  split <;> exact carries.refl f

theorem toAttempt {action : Action α} (carried : ∀ f, R f (stateOf (action f))) :
    action.toAttempt.Carried R := by
  intro f
  have hcarried := carried f
  unfold Action.toAttempt
  split
  · next hr => rwa [hr] at hcarried
  · next hr => rwa [hr] at hcarried

variable (members : Name → List NodeId)

theorem regroupOne (carries : Carries (fun _ _ => True) R) (directive : NodeId) :
    (regroupOne members directive).Carried R := by
  refine carries.bind (carries.tagOf directive) fun tag => ?_
  split
  · exact carries.pure _
  · refine carries.bind (carries.ask _) fun name => ?_
    split
    · exact carries.pure _
    · exact carries.pure _
    · split
      · exact carries.bind (toAttempt fun f => carries.groupFunctions fun _ _ _ => True.intro)
          fun _ => carries.pure _
      · exact carries.pure _

/-- **The fates of directives are carried on.** -/
theorem regroupEach (carries : Carries (fun _ _ => True) R) (listed : List NodeId) :
    (regroupEach members listed).Carried R := by
  induction listed with
  | nil => exact carries.pure _
  | cons directive rest ih =>
      exact carries.bind (carries.regroupOne members directive) fun _ =>
        carries.bind ih fun _ => carries.pure _

end Carries

/-! ### Regrouping -/

/-- A relation that is carried on, also when a document exchanges its directives and when what was
made since a mark is dropped. -/
structure Regroups (root : NodeId) (R : Forest → Forest → Prop) : Prop
    extends Carries (fun _ _ => True) R where
  document : ∀ {f g : Forest}, R f g → f.tag? root = some .document → g.tag? root = some .document
  exchange : ∀ {f : Forest} {node : Node} {directives : Segment}, f.node? root = some node →
    node.shape.tag = .document → f.Accepts root node (.document directives) →
    R f (f.reshape root node (.document directives))
  rollback : ∀ {f g : Forest}, R f g → R f (g.rollback f.mark)

namespace Regroups

variable (members : Name → List NodeId)

/-- A document may exchange its directives, or fail to. -/
theorem replaceShape (regroups : Regroups root R) (document : f.tag? root = some .document)
    (segment : Segment) : R f (stateOf (replaceShape root (.document segment) f)) := by
  cases hr : Forest.replaceShape root (.document segment) f with
  | ok _ g =>
      obtain ⟨node, hnode, accepts, -, rfl⟩ := replaceShape_eq_ok_iff.1 hr
      rw [tag?_of_node? hnode] at document
      exact regroups.exchange hnode (Option.some.inj document) accepts
  | error failure g =>
      obtain ⟨rfl, -⟩ := replaceShape_error hr
      exact regroups.refl _

/-- What follows an attempt that is carried on starts at a document if the attempt does. -/
theorem bind {α β : Type} {attempt : Attempt α} {next : α → Attempt β} (regroups : Regroups root R)
    (document : f.tag? root = some .document) (first : R f (stateOf (attempt f)))
    (second : ∀ answer g, g.tag? root = some .document → R g (stateOf (next answer g))) :
    R f (stateOf ((attempt >>= next) f)) := by
  refine Step.stateOf_bind (fun {failure g} hr => ?_) fun {answer g} hr => ?_
  · rw [hr] at first
    exact first
  · rw [hr] at first
    exact regroups.trans first (second answer g (regroups.document first document))

theorem regroup (regroups : Regroups root R) (document : f.tag? root = some .document)
    (listed : List NodeId) : R f (stateOf (regroup root listed members f)) := by
  have carries := regroups.toCarries
  refine regroups.bind document (regroups.replaceShape document _) fun _ g hg => ?_
  refine regroups.bind hg (carries.regroupEach members listed g) fun fates h hh => ?_
  have kept : Attempt.Carried R (storeList (Fate.directives fates) "directives").toAttempt :=
    Carries.toAttempt fun _ => carries.storeList _ _
  refine regroups.bind hh (kept h) fun segment k hk => ?_
  exact regroups.bind hk (regroups.replaceShape hk _) fun _ last _ => carries.pure _ last

/-- A regrouping that fails drops only what it has made itself. -/
theorem regroupOrRestore (regroups : Regroups root R) (document : f.tag? root = some .document)
    (former : Segment) : R f (stateOf (regroupOrRestore root former members f)) := by
  have hregroup := regroups.regroup members document (f.list former)
  unfold Forest.regroupOrRestore
  split
  · next refusal g hr =>
      rw [hr] at hregroup
      have hback : R f (g.rollback f.mark) := regroups.rollback hregroup
      have hrestored := regroups.replaceShape (regroups.document hback document) former
      split
      · next hs =>
          rw [hs] at hrestored
          exact regroups.trans hback hrestored
      · next hs =>
          rw [hs] at hrestored
          exact regroups.trans hback hrestored
  · exact hregroup

/-- **What the parts of regrouping carry on, regrouping carries on,** whatever the node is. -/
theorem regroupDocument (regroups : Regroups root R) (f : Forest) :
    R f (stateOf (regroupDocument root f)) := by
  rcases regroupDocument_cases root f with ⟨refusal, hr⟩ | ⟨former, document, ⟨failure, -, hr⟩ |
    ⟨declared, -, hr⟩⟩
  · rw [hr]
    exact regroups.refl f
  · rw [hr]
    exact regroups.refl f
  · rw [hr]
    split
    · obtain ⟨node, hnode, hshape⟩ := directivesOf_eq_ok_iff.1 document
      refine regroups.regroupOrRestore _ ?_ former
      rw [tag?_of_node? hnode, hshape]
      rfl
    · exact regroups.refl f

end Regroups

/-- The parts of a regrouping are moves. -/
theorem Moves.regroups (root : NodeId) : Regroups root Moves where
  refl := refl
  trans := trans
  keep f ids := (refl f).act (Act.keep ids)
  add admits _ origin := (refl _).act (Act.add admits True.intro origin)
  document moves document := moves.tag? document
  exchange here document accepts := (refl _).exchange here document accepts
  rollback moves := (refl _).rollback moves

/-! ### Changes -/

theorem acts_edit (f : Forest) (edit : Edit) : Acts (fun _ _ => True) f (edit.after f) := by
  have allowed : edit.Allowed (fun _ _ => True) f := by
    cases edit <;> simp [Edit.Allowed]
  exact Edit.acts_after allowed

/-- **A change is a few moves,** whatever it is and whether it is refused or not. -/
theorem moves_after (f : Forest) (change : Change) : f.Moves (change.after f) := by
  cases change with
  | edit edit => exact Moves.acts (acts_edit f edit)
  | reserveLocals function count => exact Moves.acts (acts_decorate Node.reserveLocals_redecorated)
  | regroup root => exact (Moves.regroups root).regroupDocument f

/-- **So are any changes.** -/
theorem moves_runAll (f : Forest) (changes : List Change) :
    f.Moves (Change.runAll f changes) := by
  induction changes generalizing f with
  | nil => exact Moves.refl f
  | cons change rest ih => exact (moves_after f change).trans (ih (change.after f))

end Forest

end SyntaxForest
