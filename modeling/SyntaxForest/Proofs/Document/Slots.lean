/-
**The slots of a document.**

A builder checks the slots of a node before it makes the node, one step at a time.  Later passes
write a literal over another, see a function through a closure and gather declarations under the
root, and none of them asks what a slot wants.  Still every slot of every node of a document that
was built holds a node of the category that is wanted there: the sort of a node never changes, and
what a later pass makes it makes over nodes of the right sorts.

Main results:

* `Document.slots_of_built` — **each slot of a document that was built holds what it wants.**
-/

import SyntaxForest.Proofs.Document.Built

set_option relaxedAutoImplicit false
set_option autoImplicit false

namespace SyntaxForest

namespace Document

/-- **Each slot holds what it wants.**  In a document that was built, whatever later passes did to
it, the segments of each node lie inside the store, and each of its slots holds a node of the
category that `Shape.Fits` names for it or, where that is allowed, is left out.  A slot that holds
a node is not left out.  The root is a document, and the nodes in it are directives. -/
theorem slots_of_built {d : Document} (built : d.Built) :
    (∀ id node, d.forest.node? id = some node →
        node.shape.Stored d.forest.lists ∧ node.shape.Fits d.forest)
      ∧ (∀ accepts slot, d.forest.Holds accepts slot → slot.isPresent = true)
      ∧ ∃ segment, d.forest.directivesOf d.root = .ok segment ∧ segment.Inside d.forest.lists
        ∧ d.forest.HoldsAll Tag.isDirective (d.forest.list segment) := by
  have sound := built.sound
  obtain ⟨segment, document⟩ := sound.document
  obtain ⟨root, hroot, hshape⟩ := Forest.directivesOf_eq_ok_iff.1 document
  have fitting := sound.fitted.node hroot
  rw [hshape] at fitting
  refine ⟨fun id node hnode => ?_, fun accepts slot held => held.isPresent sound.fitted.room,
    segment, document, fitting.stored segment (List.mem_singleton.2 rfl), fitting.fits⟩
  have fitting := sound.fitted.node hnode
  exact ⟨fitting.stored, fitting.fits⟩

/-- A function that matches over a literal, with a default arm, and another function of its name;
an arm that is always taken is refused in the first place. -/
def matchAndNamesake : Builder :=
  Builder.runAll (Builder.start NameTable.fresh "" none)
    [ .name "f" ⟨0, 1⟩, .beginFunction, .literal .null ⟨1, 2⟩, .literal (.boolean true) ⟨2, 3⟩,
      .literal .null ⟨3, 4⟩, .literalArm ⟨2⟩ ⟨3⟩ ⟨2, 4⟩, .literal .null ⟨4, 5⟩,
      .defaultArm ⟨5⟩ ⟨4, 5⟩, .matching ⟨1⟩ [⟨6⟩, ⟨4⟩] ⟨1, 5⟩, .matching ⟨1⟩ [⟨4⟩, ⟨6⟩] ⟨1, 5⟩,
      .function ⟨0⟩ none [] (some ⟨7⟩) ⟨0, 5⟩, .funDirective ⟨8⟩ false ⟨0, 5⟩,
      .name "f" ⟨5, 6⟩, .beginFunction, .function ⟨10⟩ none [] none ⟨5, 6⟩,
      .funDirective ⟨11⟩ false ⟨5, 6⟩ ]

/-- The document over them. -/
def matchAndNamesakeDocument : Document :=
  (matchAndNamesake.finish [⟨9⟩, ⟨12⟩]).toOption.getD default

/-- The same after a literal was replaced, a function was seen through a closure and the
declarations were grouped. -/
def matchAndNamesakeGrouped : Document :=
  stateOf (groupOverloads (stateOf (edit (.specialize ⟨8⟩ ⟨0⟩)
    (stateOf (edit (.setLiteral ⟨2⟩ (.boolean false)) matchAndNamesakeDocument)))))

/-- The first arm is at a literal, which was replaced, and the default arm is the last. -/
theorem slots_matchAndNamesakeGrouped :
    matchAndNamesakeGrouped.Built
      ∧ ∃ arms, matchAndNamesakeGrouped.forest.shape? ⟨7⟩ = some (.matching ⟨1⟩ arms ⟨0⟩)
        ∧ matchAndNamesakeGrouped.forest.HoldsAll (· ≠ .defaultArm)
          (matchAndNamesakeGrouped.forest.list arms).dropLast := by
  have reached : matchAndNamesake.Reached := (Builder.Reached.start .fresh "" none).runAll _
  have handed : matchAndNamesake.finish [⟨9⟩, ⟨12⟩] = .ok matchAndNamesakeDocument :=
    Question.eq_ok_of_isOk (by decide +kernel)
  have replaced := (Built.finish reached handed).edit (.setLiteral ⟨2⟩ (.boolean false)) True.intro
  have built : matchAndNamesakeGrouped.Built :=
    (replaced.edit (.specialize ⟨8⟩ ⟨0⟩) True.intro).groupOverloads
  have hshape : matchAndNamesakeGrouped.forest.shape? ⟨7⟩
      = some (.matching ⟨1⟩ ⟨0, 2⟩ ⟨0⟩) := by decide +kernel
  obtain ⟨node, hnode, hsame⟩ := Forest.shape?_eq_some_iff.1 hshape
  have fits := ((slots_of_built built).1 ⟨7⟩ node hnode).2
  rw [hsame] at fits
  exact ⟨built, ⟨0, 2⟩, hshape, fits.2.2⟩

end Document

end SyntaxForest
