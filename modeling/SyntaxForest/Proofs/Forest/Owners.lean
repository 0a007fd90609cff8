/-
**Owners, whatever is handed over.**

A segment may lie beyond the store, and then a node comes by children that do not name it as their
owner, so the two records of the edges agree only as long as the makers of nodes keep their promise.
One direction needs no promise: a node that names an owner is among the children of that owner.  A
sequence that is kept can only add to what segments hold, a node that is made or exchanges its
contents lists what it comes to own, and what it gives up it has listed.

What is delicate is a regrouping that fails when sequences have been kept: the store is cut back
then, and segments that had come to lie inside it are beyond it again.  But whatever names an owner
from before the regrouping did so before, so that owner lists it without those sequences.

Main results:

* `Forest.OwnersList.acts`, `Forest.OwnersList.reshape` — making and decorating nodes, and
  exchanging contents;
* `Forest.OwnersList.rollback_of_regroup` — **falling back brings back the document without
  directives**;
* `Forest.OwnersList.runAll` — **whatever changes are made, owners list the nodes that name
  them.**
-/

import SyntaxForest.Proofs.Forest.Moves

set_option relaxedAutoImplicit false
set_option autoImplicit false

namespace SyntaxForest

variable {store : Array NodeId} {child : NodeId}

theorem Segment.mem_entries_append {s : Segment} (ids : List NodeId)
    (h : child ∈ s.entries store) : child ∈ s.entries (store ++ ids) := by
  rwa [entries_append (inside_of_entries_ne_nil (List.ne_nil_of_mem h))]

theorem Shape.mem_children_append {shape : Shape} (ids : List NodeId)
    (h : child ∈ shape.children store) : child ∈ shape.children (store ++ ids) := by
  cases shape with
  | document directives => exact Segment.mem_entries_append ids h
  | overloads name members => exact Segment.mem_entries_append ids h
  | function name returnType parameters body =>
      simp only [children, List.mem_append] at h ⊢
      exact h.imp_left (Or.imp_right (Segment.mem_entries_append ids))
  | call callee arguments isOperator =>
      simp only [children, List.mem_append] at h ⊢
      exact h.imp_right (Segment.mem_entries_append ids)
  | matching scrutinee arms slot =>
      simp only [children, List.mem_append] at h ⊢
      exact h.imp_right (Segment.mem_entries_append ids)
  | _ => exact h

namespace Forest

variable {f g : Forest} {id root : NodeId} {node : Node} {shape : Shape} {span : Span}

namespace OwnersList

/-! ### Making and decorating nodes -/

theorem keep (owners : f.OwnersList) (ids : List NodeId) : (f.keep ids).OwnersList where
  mem h := by
    obtain ⟨node, hnode, hchild⟩ := mem_childList_iff.1 (owners.mem h)
    exact mem_childList_iff.2 ⟨node, hnode, Shape.mem_children_append ids hchild⟩

/-- A node that is made lists what it comes to own. -/
theorem add (owners : f.OwnersList) (admits : f.Admits shape span) (donor : Option NodeId) :
    (f.add shape span donor).OwnersList where
  mem {owner child} h := by
    by_cases hnew : child.raw = f.size
    · obtain rfl := NodeId.eq_of_raw hnew
      rw [parent?_add_self admits] at h
      cases h
    by_cases hmem : child ∈ shape.children f.lists
    · rw [parent?_add_of_mem admits hmem] at h
      obtain rfl := Option.some.inj h
      rwa [childList_add_self admits]
    · rw [parent?_add_of_notMem hnew hmem] at h
      rw [childList_add_of_ne (Nat.ne_of_lt (owners.lt_size_of_parent? h))]
      exact owners.mem h

theorem replace {old new : Node} (owners : f.OwnersList) (here : f.node? id = some old)
    (redecorated : old.Redecorated new) : (f.replace id new).OwnersList where
  mem h := by
    rw [parent?_replace here redecorated] at h
    rw [childList_replace here redecorated]
    exact owners.mem h

theorem acts {allowed : Forest → Shape → Prop} (owners : f.OwnersList)
    (acts : Acts allowed f g) : g.OwnersList := by
  refine acts.preserves ?_ owners
  intro f g act owners
  cases act with
  | keep ids => exact owners.keep ids
  | add admits _ _ => exact owners.add admits _
  | decorate here redecorated => exact owners.replace here redecorated

/-! ### Exchanging contents -/

/-- What a node gives up it has listed, and what it comes to own it lists. -/
theorem reshape (owners : f.OwnersList) (here : f.node? id = some node) :
    (f.reshape id node shape).OwnersList where
  mem {owner child} h := by
    obtain ⟨later, hlater, hparent⟩ := parent?_eq_some_iff.1 h
    rw [node?_reshape] at hlater
    obtain ⟨old, hold, rfl⟩ := Option.map_eq_some_iff.1 hlater
    rw [parent_reshaped] at hparent
    by_cases htaken : child ∈ shape.children f.lists
    · rw [adopted_of_mem htaken] at hparent
      obtain rfl := Option.some.inj hparent
      rwa [childList_reshape_self here]
    · rw [adopted_of_notMem htaken] at hparent
      unfold released at hparent
      split at hparent
      · cases hparent
      · next hkept =>
          have hlisted := owners.mem (parent?_eq_some_iff.2 ⟨old, hold, hparent⟩)
          have hother : owner ≠ id := by
            rintro rfl
            rw [childList_of_node? here] at hlisted
            exact hkept ⟨hlisted, hparent⟩
          rwa [childList_reshape_of_ne hother]

theorem replaceShape (owners : f.OwnersList) (id : NodeId) (shape : Shape) :
    (stateOf (Forest.replaceShape id shape f)).OwnersList := by
  cases hr : Forest.replaceShape id shape f with
  | ok _ g =>
      obtain ⟨node, here, -, -, rfl⟩ := replaceShape_eq_ok_iff.1 hr
      exact owners.reshape here
  | error failure g =>
      rw [(replaceShape_error hr).1]
      exact owners

end OwnersList

/-! ### Regrouping -/

/-- A forest that grows, its owners listing the nodes that name them if they did so before. -/
def GrowsOwned (f g : Forest) : Prop := f.OwnersList → g.OwnersList ∧ f.Grows g

theorem carries_growsOwned : Carries (fun _ _ => True) GrowsOwned where
  refl f owners := ⟨owners, Grows.refl f⟩
  trans first second owners := by
    obtain ⟨between, grows⟩ := first owners
    obtain ⟨last, grows'⟩ := second between
    exact ⟨last, grows.trans grows'⟩
  keep f ids owners := ⟨owners.keep ids, Grows.keep f ids⟩
  add admits _ _ owners := ⟨owners.add admits _, Grows.add owners admits _⟩

/-- What a regrouping does between giving up the directives of a document and owning others: the
fates of the directives, and the segment of those that are left. -/
def formGroups (listed : List NodeId) (members : Name → List NodeId) :
    Attempt (List Fate × Segment) := do
  let fates ← regroupEach members listed
  let segment ← (storeList (Fate.directives fates) "directives").toAttempt
  return (fates, segment)

theorem regroup_eq (root : NodeId) (listed : List NodeId) (members : Name → List NodeId) :
    regroup root listed members = (do
      Forest.replaceShape root (.document Segment.empty)
      let formed ← formGroups listed members
      Forest.replaceShape root (.document formed.2)
      return Fate.groups formed.1) := by
  simp only [regroup, formGroups, bind_assoc, pure_bind]

theorem carried_formGroups (listed : List NodeId) (members : Name → List NodeId) :
    (formGroups listed members).Carried GrowsOwned := by
  have carries := carries_growsOwned
  refine carries.bind (carries.regroupEach members listed) fun fates => ?_
  exact carries.bind (Carries.toAttempt fun _ => carries.storeList _ _) fun _ => carries.pure _

namespace OwnersList

variable {listed : List NodeId} {members : Name → List NodeId} {failure : Failure}

/-- A regrouping fails at once, or the forest in which the document has given up its directives
grows, and then the regrouping fails or has one thing left to do. -/
theorem regroup_parts (owners : f.OwnersList) (root : NodeId) (listed : List NodeId)
    (members : Name → List NodeId) :
    (∃ failure, Forest.regroup root listed members f = .error failure f)
      ∨ ∃ given passed : Forest, given.OwnersList ∧ given.mark = f.mark ∧ passed.OwnersList
        ∧ given.Grows passed
        ∧ ((∃ failure, Forest.regroup root listed members f = .error failure passed)
          ∨ ∃ formed : List Fate × Segment, Forest.regroup root listed members f
            = (Forest.replaceShape root (.document formed.2) >>= fun _ =>
              pure (Fate.groups formed.1) : Attempt (List NodeId)) passed) := by
  rw [regroup_eq]
  cases hgiven : Forest.replaceShape root (.document Segment.empty) f with
  | error failure g =>
      obtain ⟨rfl, -⟩ := replaceShape_error hgiven
      exact Or.inl ⟨failure, Step.bind_eq_error_iff.2 (Or.inl hgiven)⟩
  | ok _ given =>
      have known := owners.replaceShape root (.document Segment.empty)
      -- while groups are formed the forest only grows
      have formed := carried_formGroups listed members given
      rw [hgiven] at known
      have hmark : given.mark = f.mark := by
        obtain ⟨node, -, -, -, rfl⟩ := replaceShape_eq_ok_iff.1 hgiven
        exact congrArg (Mark.mk · _) (size_reshape f root node _)
      rw [Step.bind_of_ok hgiven]
      cases hformed : formGroups listed members given with
      | error failure passed =>
          rw [hformed] at formed
          obtain ⟨still, grows⟩ := formed known
          exact Or.inr ⟨given, passed, known, hmark, still, grows,
            Or.inl ⟨failure, Step.bind_eq_error_iff.2 (Or.inl hformed)⟩⟩
      | ok answer passed =>
          rw [hformed] at formed
          obtain ⟨still, grows⟩ := formed known
          exact Or.inr ⟨given, passed, known, hmark, still, grows,
            Or.inr ⟨answer, Step.bind_of_ok hformed⟩⟩

theorem regroup (owners : f.OwnersList) (root : NodeId) (listed : List NodeId)
    (members : Name → List NodeId) :
    (stateOf (Forest.regroup root listed members f)).OwnersList := by
  rcases owners.regroup_parts root listed members with ⟨failure, hr⟩ |
    ⟨given, passed, -, -, still, -, ⟨failure, hr⟩ | ⟨formed, hr⟩⟩
  · rw [hr]
    exact owners
  · rw [hr]
    exact still
  · rw [hr]
    have last := still.replaceShape root (.document formed.2)
    refine Step.stateOf_bind (fun {failure h} hs => ?_) fun {_ h} hs => ?_
    · rwa [hs] at last
    · rwa [hs] at last

/-- **Falling back brings back the document without directives,** or with them if it has not given
them up. -/
theorem rollback_of_regroup (owners : f.OwnersList)
    (run : Forest.regroup root listed members f = .error failure g) :
    (g.rollback f.mark).OwnersList := by
  rcases owners.regroup_parts root listed members with ⟨other, hr⟩ |
    ⟨given, passed, known, hmark, still, grows, ⟨other, hr⟩ | ⟨formed, hr⟩⟩
  · rw [hr] at run
    cases run
    rwa [(Grows.refl f).rollback_eq owners owners]
  · rw [hr] at run
    cases run
    rwa [← hmark, grows.rollback_eq known still]
  · rw [hr] at run
    -- the exchange that would give the document others has not taken place
    rcases Step.bind_eq_error_iff.1 run with hs | ⟨_, _, _, hs⟩
    · obtain ⟨rfl, -⟩ := replaceShape_error hs
      rwa [← hmark, grows.rollback_eq known still]
    · cases hs

theorem regroupOrRestore (owners : f.OwnersList) (root : NodeId) (former : Segment)
    (members : Name → List NodeId) :
    (stateOf (Forest.regroupOrRestore root former members f)).OwnersList := by
  have regrouped := owners.regroup root (f.list former) members
  unfold Forest.regroupOrRestore
  split
  · next refusal g hr =>
      have restored := (owners.rollback_of_regroup hr).replaceShape root (.document former)
      split
      · next hs => rwa [hs] at restored
      · next hs => rwa [hs] at restored
  · exact regrouped

/-- **Regrouping a document leaves owners that list the nodes that name them.** -/
theorem regroupDocument (owners : f.OwnersList) (root : NodeId) :
    (stateOf (Forest.regroupDocument root f)).OwnersList := by
  rcases regroupDocument_cases root f with ⟨refusal, hr⟩ | ⟨former, -, ⟨failure, -, hr⟩ |
    ⟨declared, -, hr⟩⟩ <;> rw [hr]
  · exact owners
  · exact owners
  · split
    · exact owners.regroupOrRestore root former _
    · exact owners

end OwnersList

/-! ### Changes -/

theorem OwnersList.after (owners : f.OwnersList) (change : Change) :
    (change.after f).OwnersList := by
  cases change with
  | edit edit => exact owners.acts (acts_edit f edit)
  | reserveLocals function count =>
      have acts : Acts (fun _ _ => True) f ((Change.reserveLocals function count).after f) :=
        acts_decorate Node.reserveLocals_redecorated
      exact owners.acts acts
  | regroup root => exact owners.regroupDocument root

/-- **Whatever changes are made, owners list the nodes that name them.** -/
theorem OwnersList.runAll (owners : f.OwnersList) (changes : List Change) :
    (Change.runAll f changes).OwnersList := by
  induction changes generalizing f with
  | nil => exact owners
  | cons change rest ih => exact ih (owners.after change)

end Forest

end SyntaxForest
