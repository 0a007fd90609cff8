/-
**Documents that were built.**

A document is handed over by a builder.  Later passes decorate its nodes, specialise functions,
make groups and group its declarations by name, and other users of its table of names may ask for
more of them.  All the while its nodes fit, they form trees, and its root is a document.

Main definitions:

* `Edit.IsLater` — the edits of later passes;
* `Document.Built` — the documents that a builder hands over and later passes change;
* `Document.Sound` — what holds of them.

Main results:

* `Forest.Fitted.regroup` — regrouping keeps all nodes fitting;
* `Document.Built.sound` — **a document that was built is sound.**
-/

import SyntaxForest.Proofs.Builder.Reach
import SyntaxForest.Proofs.Forest.History

set_option relaxedAutoImplicit false
set_option autoImplicit false

namespace SyntaxForest

namespace Forest

variable {names : NameTable} {f g : Forest} {root : NodeId} {former : Segment}
  {groups : List NodeId} {members : Name → List NodeId} {allowed : Forest → Shape → Prop}

/-! ### The root -/

/-- An act leaves a document with its directives. -/
theorem Act.directivesOf (act : Act allowed f g) (document : f.directivesOf root = .ok former) :
    g.directivesOf root = .ok former := by
  obtain ⟨node, hnode, hshape⟩ := directivesOf_eq_ok_iff.1 document
  refine directivesOf_eq_ok_iff.2 ?_
  cases act with
  | keep ids => exact ⟨node, hnode, hshape⟩
  | add admits _ _ =>
      obtain ⟨later, hlater, hsame⟩ := exists_node?_add hnode
      exact ⟨later, hlater, hsame.trans hshape⟩
  | @decorate id old new here redecorated =>
      by_cases hroot : root = id
      · subst hroot
        rw [hnode] at here
        cases here
        refine ⟨new, node?_replace_self hnode, ?_⟩
        rcases redecorated.shape with heq | ⟨a, b, ha, -⟩
        · rw [heq, hshape]
        · rw [hshape] at ha
          cases ha
      · exact ⟨node, by rw [node?_replace_of_ne hroot, hnode], hshape⟩

theorem Acts.directivesOf (acts : Acts allowed f g) (document : f.directivesOf root = .ok former) :
    g.directivesOf root = .ok former := by
  induction acts with
  | refl => exact document
  | tail _ act ih => exact act.directivesOf ih

/-! ### Regrouping -/

/-- A document that gives up its directives fits, and so does everything else. -/
theorem Fitted.disown (fitted : f.Fitted names) (document : f.directivesOf root = .ok former) :
    f.Continues (f.disown root) ∧ (f.disown root).Fitted names := by
  obtain ⟨node, hnode, hshape⟩ := directivesOf_eq_ok_iff.1 document
  have continues : f.Continues (f.disown root) := by
    refine ⟨fun {id tag} htag => ?_, [], by simp⟩
    obtain ⟨old, hold, rfl⟩ := tag?_eq_some_iff.1 htag
    rw [tag?, node?_disown, hold, Option.map_some, Option.map_some, orphaned]
    by_cases hid : id = root
    · subst hid
      rw [hnode] at hold
      cases hold
      rw [if_pos rfl, hshape]
      rfl
    · rw [if_neg hid]
  refine ⟨continues, fun {id later} hlater => ?_, by rw [size_disown]; exact fitted.room⟩
  rw [node?_disown] at hlater
  obtain ⟨old, hold, rfl⟩ := Option.map_eq_some_iff.1 hlater
  rw [orphaned]
  by_cases hid : id = root
  · rw [if_pos hid]
    exact fitting_of_segment rfl (Segment.inside_empty _) (Nat.zero_le _)
      (List.forall_mem_nil _) (List.forall_mem_nil _)
  · rw [if_neg hid]
    exact (fitted.node hold).continues continues

/-- A document that owns new directives fits, and so does everything else. -/
theorem Fitted.reshape {node : Node} {segment : Segment} (fitted : f.Fitted names)
    (here : f.node? root = some node) (document : node.shape.tag = .document)
    (inside : segment.Inside f.lists) (short : segment.length ≤ maxListLength)
    (directives : f.HoldsAll Tag.isDirective (f.list segment)) :
    (f.reshape root node (.document segment)).Fitted names := by
  have continues : f.Continues (f.reshape root node (.document segment)) := by
    refine ⟨fun {id tag} htag => ?_, [], by simp⟩
    obtain ⟨old, hold, rfl⟩ := tag?_eq_some_iff.1 htag
    obtain ⟨later, hlater, hshape⟩ := exists_node?_reshape hold
    rw [tag?_of_node? hlater, hshape]
    split
    · next hid =>
        rw [hid, here] at hold
        cases hold
        rw [document]
        rfl
    · rfl
  refine ⟨fun {id later} hlater => ?_, by rw [size_reshape]; exact fitted.room⟩
  refine Fitting.continues ?_ continues
  have hlt := lt_size_of_node? hlater
  rw [size_reshape] at hlt
  obtain ⟨old, hold⟩ := node?_isSome_iff.2 hlt
  obtain ⟨later', hlater', hshape⟩ := exists_node?_reshape hold
  rw [hlater] at hlater'
  cases hlater'
  rw [hshape]
  split
  · exact fitting_of_segment rfl inside short (fun name hn => (nomatch hn)) directives
  · exact fitted.node hold

/-- **Regrouping keeps all nodes fitting,** and the root is still a document. -/
theorem Fitted.regroup (fitted : f.Fitted names) (tree : f.Treelike)
    (document : f.directivesOf root = .ok former)
    (run : Forest.regroup root (f.list former) members f = .ok groups g) :
    g.Fitted names ∧ ∃ later, g.directivesOf root = .ok later := by
  obtain ⟨fates, segment, between, node, formed, hleft, hinside, hshort, hlist, hnode, accepts,
    rfl⟩ := regroup_ok tree document run
  obtain ⟨formed, more, grouped, -⟩ := formed
  obtain ⟨hdisown, hdisowned⟩ := fitted.disown document
  have hbetween : between.Fitted names :=
    hdisowned.acts (grouped.acts.mono fun _ _ group fitted => group.fitting fitted)
  have hcontinues := hdisown.trans grouped.acts.continues
  obtain ⟨old, hold, hshape⟩ := directivesOf_eq_ok_iff.1 document
  have htag : node.shape.tag = .document := by
    have hroot := hcontinues.tag? (tag?_of_node? hold)
    rw [hshape, tag?_of_node? hnode] at hroot
    exact Option.some.inj hroot
  have hformer : f.HoldsAll Tag.isDirective (f.list former) := by
    have hfits := (fitted.node hold).fits
    rw [hshape] at hfits
    exact hfits
  refine ⟨hbetween.reshape hnode htag hinside hshort fun left hl => ?_, segment, ?_⟩
  · have hchild : left ∈ Shape.children between.lists (.document segment) := hl
    rw [hlist] at hl
    rcases hleft left hl with hm | hle
    · exact (hformer left hm).continues hcontinues
    · -- what is not a former directive is a group
      obtain ⟨later, hlater, -⟩ := accepts.free left hchild
      obtain ⟨name, part, donor, first, rfl⟩ :=
        grouped.group_of_node? hlater (by rw [size_disown]; exact hle)
      exact ⟨.overloads, tag?_of_node? hlater, rfl⟩
  · obtain ⟨later, hlater, hlast⟩ := exists_node?_reshape hnode
    exact directivesOf_eq_ok_iff.2 ⟨later, hlater, hlast.trans (if_pos rfl)⟩

/-- Regrouping a document keeps all nodes fitting. -/
theorem Fitted.regroupDocument (fitted : f.Fitted names) (tree : f.Treelike)
    (run : Forest.regroupDocument root f = .ok groups g) :
    g.Fitted names ∧ ∃ former, g.directivesOf root = .ok former := by
  obtain ⟨former, document, ⟨declared, _, hregroup⟩ | ⟨-, rfl⟩⟩ := tree.regroupDocument_ok run
  · exact fitted.regroup tree document hregroup
  · exact ⟨fitted, former, document⟩

end Forest

/-! ### Later passes -/

/-- An edit of a later pass: it makes no node other than functions seen through closures and
groups. -/
def Edit.IsLater : Edit → Prop
  | .insert _ _ => False
  | .insertDerived _ _ => False
  | _ => True

open Forest in
/-- The nodes that a later edit makes fit where all nodes do. -/
theorem Edit.IsLater.allowed {edit : Edit} (later : edit.IsLater) (names : NameTable)
    (f : Forest) :
    edit.Allowed (fun f shape => f.Fitted names → f.Fitting names shape) f := by
  cases edit with
  | insert shape span => exact later.elim
  | insertDerived shape donor => exact later.elim
  | specialize base closure =>
      intro span admits _
      exact fitting_of_slots rfl (fun name hn => (nomatch hn))
        ⟨.function, checkContents_specialized_iff.1 admits.contents, rfl⟩
  | groupFunctions name members =>
      intro short span admits fitted
      exact IsGroup.fitting ⟨f, name, members, span, rfl, rfl, short, admits⟩ fitted
  | _ => exact True.intro

/-- A later edit makes no promise about segments. -/
theorem Edit.IsLater.stored {edit : Edit} (later : edit.IsLater) (f : Forest) :
    (Forest.Change.edit edit).Stored f := by
  cases edit with
  | insert shape span => exact later.elim
  | insertDerived shape donor => exact later.elim
  | _ => exact True.intro

namespace Document

/-- A document that a builder hands over and later passes change. -/
inductive Built : Document → Prop
  | finish {b : Builder} {directives : List NodeId} {d : Document} (reached : b.Reached)
      (run : b.finish directives = .ok d) : Built d
  | edit {d : Document} (built : Built d) (edit : Edit) (later : edit.IsLater) :
      Built (stateOf (Document.edit edit d))
  | setContext {d : Document} (built : Built d) (context : ContextId) :
      Built (stateOf (setContext context d))
  | groupOverloads {d : Document} (built : Built d) : Built (stateOf (groupOverloads d))
  /-- Somebody else asks for the number of a text. -/
  | intern {d : Document} (built : Built d) (text : String) :
      Built { d with names := (d.names.intern text).2 }

/-- What holds of the documents that were built. -/
structure Sound (d : Document) : Prop where
  tree : d.forest.Treelike
  fitted : d.forest.Fitted d.names
  distinct : d.names.Distinct
  document : ∃ former, d.forest.directivesOf d.root = .ok former

theorem stateOf_edit (edit : Edit) (d : Document) :
    stateOf (Document.edit edit d) = { d with forest := edit.after d.forest } := by
  unfold Document.edit Edit.after
  dsimp only
  cases edit.run d.forest <;> rfl

open Forest in
/-- **A document that was built is sound.** -/
theorem Built.sound {d : Document} (built : d.Built) : d.Sound := by
  induction built with
  | @finish b directives d reached run =>
      obtain ⟨id, c, hroot, rfl⟩ := Builder.finish_eq_ok_iff.1 run
      obtain ⟨reaches, node, segment, hnode, hshape⟩ := (b.performs_root directives).of_ok hroot
      have sound := reached.sound.reaches reaches
      exact ⟨sound.tree, sound.fitted, sound.distinct, segment,
        directivesOf_eq_ok_iff.2 ⟨node, hnode, hshape⟩⟩
  | @edit d _ edit later ih =>
      rw [stateOf_edit]
      -- what a later edit makes fits where all nodes do, and it leaves the root a document
      have acts := Edit.acts_after (later.allowed d.names d.forest)
      obtain ⟨former, document⟩ := ih.document
      exact ⟨ih.tree.after (later.stored d.forest), ih.fitted.acts acts, ih.distinct, former,
        acts.directivesOf document⟩
  | @setContext d _ context ih =>
      unfold Document.setContext
      split <;> exact ⟨ih.tree, ih.fitted, ih.distinct, ih.document⟩
  | @groupOverloads d _ ih =>
      rw [ih.tree.groupOverloads_eq]
      cases hr : Forest.regroupDocument d.root d.forest with
      | ok groups g =>
          obtain ⟨fitted, document⟩ := ih.fitted.regroupDocument ih.tree hr
          exact ⟨ih.tree.regroupDocument hr, fitted, ih.distinct, document⟩
      | error failure g =>
          obtain ⟨rfl, -⟩ := ih.tree.regroupDocument_error hr
          exact ih
  | @intern d _ text ih =>
      exact ⟨ih.tree, ih.fitted.extends (NameTable.extends_intern d.names text),
        ih.distinct.intern text, ih.document⟩

end Document

end SyntaxForest
