/-
**What the makers of nodes carry on.**

Everything that makes nodes keeps sequences and adds nodes, and does nothing else.  A relation
between the forest before and the forest after that both carry on is carried on by every maker of
nodes, whether it is refused or not.

Main definitions:

* `Forest.Carries` — a relation that keeping sequences and making nodes carry on.

Main results:

* `Forest.Carries.insert`, `Forest.Carries.insertDerived`, `Forest.Carries.storeList`,
  `Forest.Carries.groupFunctions` — **the makers of nodes carry it on.**
-/

import SyntaxForest.Proofs.Forest.Lookup
import SyntaxForest.Proofs.Outcome

set_option relaxedAutoImplicit false
set_option autoImplicit false

namespace SyntaxForest

namespace Forest

/-- A relation between forests that keeping sequences and making nodes of some shapes carry on;
`allowed` says which shapes a new node may have. -/
structure Carries (allowed : Forest → Shape → Prop) (R : Forest → Forest → Prop) : Prop where
  refl : ∀ f : Forest, R f f
  trans : ∀ {f g h : Forest}, R f g → R g h → R f h
  keep : ∀ (f : Forest) (ids : List NodeId), R f (f.keep ids)
  /-- A node may be made; it has the span of the node it is derived from. -/
  add : ∀ {f : Forest} {shape : Shape} {span : Span} {donor : Option NodeId},
    f.Admits shape span → allowed f shape →
    (∀ d, donor = some d → ∃ node, f.node? d = some node ∧ node.span = span) →
    R f (f.add shape span donor)

namespace Carries

variable {allowed : Forest → Shape → Prop} {R : Forest → Forest → Prop} {f : Forest}
  {shape : Shape} {span : Span}

theorem insert (carries : Carries allowed R)
    (shapeAllowed : f.Admits shape span → allowed f shape) :
    R f (stateOf (insert shape span f)) := by
  cases hr : Forest.insert shape span f with
  | error refusal g =>
      rw [insert_refused hr]
      exact carries.refl f
  | ok id g =>
      obtain ⟨admits, -, rfl⟩ := insert_eq_ok_iff.1 hr
      exact carries.add admits (shapeAllowed admits) fun _ hd => nomatch hd

theorem insertDerived (carries : Carries allowed R) {donor : NodeId}
    (shapeAllowed : ∀ {span}, f.Admits shape span → allowed f shape) :
    R f (stateOf (insertDerived shape donor f)) := by
  cases hr : Forest.insertDerived shape donor f with
  | error refusal g =>
      rw [insertDerived_refused hr]
      exact carries.refl f
  | ok id g =>
      obtain ⟨node, hnode, admits, -, rfl⟩ := insertDerived_eq_ok_iff.1 hr
      refine carries.add admits (shapeAllowed admits) fun d hd => ?_
      cases hd
      exact ⟨node, hnode, rfl⟩

theorem storeList (carries : Carries allowed R) (ids : List NodeId) (what : String) :
    R f (stateOf (storeList ids what f)) := by
  cases hr : Forest.storeList ids what f with
  | error refusal g =>
      rw [storeList_refused hr]
      exact carries.refl f
  | ok segment g =>
      obtain ⟨rfl, -⟩ := storeList_eq_ok_iff.1 hr
      exact carries.keep f ids

/-- A group of overloads is made of a sequence just kept. -/
theorem groupFunctions (carries : Carries allowed R) {name : Name} {members : List NodeId}
    (shapeAllowed : members.length ≤ maxListLength → ∀ {span},
      (f.keep members).Admits (.overloads name ⟨f.lists.size, members.length⟩) span →
        allowed (f.keep members) (.overloads name ⟨f.lists.size, members.length⟩)) :
    R f (stateOf (groupFunctions name members f)) := by
  cases members with
  | nil => exact carries.refl f
  | cons first rest =>
      refine Step.stateOf_bind (fun {refusal g} hs => ?_) fun {segment g} hs => ?_
      · rw [storeList_refused hs]
        exact carries.refl f
      · obtain ⟨rfl, ⟨hnil, -⟩ | ⟨-, hshort, -, rfl⟩⟩ := storeList_eq_ok_iff.1 hs
        · cases hnil
        · exact carries.trans (carries.keep f _) (carries.insertDerived (shapeAllowed hshort))

end Carries

end Forest

end SyntaxForest
