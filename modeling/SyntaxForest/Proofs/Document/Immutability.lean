/-
**Nodes stay what they are.**

Passes keep node numbers for a long time and rely on what stands there.  Whatever is done to a
forest, to a builder or to a document, refused or not, every node keeps its number, its sort, its
place in the source and its origin; parentheses and errors are only added; and its contents stay,
with two exceptions: the value of a literal, and the directives of a document whose declarations
are grouped.  New nodes are numbered on from where the numbers ended.

A grouping that fails is meant to leave the directives too, and in a forest of trees it does.  But a
forest can also be made by somebody who hands over a segment that lies beyond the store.  If the
store then grows under it, a document may list directives that another document owns.  It can give
them up, but it cannot own them again, so the failure leaves it without directives.

Main definitions:

* `Document.stale` — a document over a segment that lay beyond the store when it was made.

Main results:

* `Document.evolvesBy_of_groupOverloads`, `Document.emptied_of_groupOverloads` — what grouping does
  to the contents of nodes, done and failed;
* `Document.contents_of_groupOverloads`, `Document.eq_of_groupOverloads_error` — when a failure
  leaves all contents, and that it changes nothing in a forest of trees;
* `Document.nodes_of_operations` — **what every operation leaves, and where new nodes stand**;
* `Document.contents_of_stale` — a failure that leaves a document without directives.
-/

import SyntaxForest.Proofs.Builder.Arrivals

set_option relaxedAutoImplicit false
set_option autoImplicit false

namespace SyntaxForest

namespace Document

open Forest

variable {d e : Document} {groups : List NodeId} {failure : Failure}

/-- A grouping that is done exchanges the directives of the root and nothing else. -/
theorem evolvesBy_of_groupOverloads (h : groupOverloads d = .ok groups e) :
    d.forest.EvolvesBy (Change.regroup d.root).Rewrites e.forest := by
  obtain ⟨forest, hr, rfl⟩ := groupOverloads_ok h
  have evolves := evolvesBy_after d.forest (.regroup d.root)
  rw [Change.after, hr] at evolves
  exact evolves

theorem emptied_of_groupOverloads (h : groupOverloads d = .error failure e) :
    d.forest.EvolvesBy (Emptied d.root) e.forest := by
  rcases groupOverloads_error h with rfl | ⟨refusal, forest, hr, rfl⟩
  · exact EvolvesBy.refl e.forest
  · exact emptied_of_refused hr

/-- A refused grouping leaves all contents if the root may own its former directives in what is
left. -/
theorem contents_of_groupOverloads {rewrites : NodeId → Shape → Shape → Prop}
    (h : groupOverloads d = .error failure e)
    (accepts : ∀ former node, d.forest.directivesOf d.root = .ok former →
      e.forest.node? d.root = some node → e.forest.Accepts d.root node (.document former)) :
    d.forest.EvolvesBy rewrites e.forest := by
  rcases groupOverloads_error h with rfl | ⟨refusal, forest, hr, rfl⟩
  · exact EvolvesBy.refl e.forest
  · exact contents_of_refused hr accepts

theorem eq_of_groupOverloads_error (tree : d.forest.Treelike)
    (h : groupOverloads d = .error failure e) : e = d := by
  rcases groupOverloads_error h with rfl | ⟨refusal, forest, hr, rfl⟩
  · rfl
  · rw [(tree.regroupDocument_error hr).1]

/-- **Nodes stay what they are, and new nodes are numbered on.**  A change of a forest leaves every
node its number, sort, place and origin, takes away no parentheses and no errors, and exchanges
contents only where a literal takes another value of its kind or a document is regrouped.  A step
of a builder and the end of its run exchange no contents at all.  A grouping that is done exchanges
the directives of the root.  One that fails changes nothing in a forest of trees; in any other
forest it leaves all contents if the root may own its former directives in what is left, and
otherwise the root at worst without directives.  The numbers after an operation are those before it
and those that it answers for new nodes, in their order; a refused one makes no node. -/
theorem nodes_of_operations (f : Forest) (change : Change) (edit : Edit) (function : NodeId)
    (count : Nat) (b : Builder) (step : Builder.Step) (directives : List NodeId) (d : Document) :
    (f.EvolvesBy change.Rewrites (change.after f)
        ∧ Step.Enlists Forest.ids Edit.Answer.made edit.run
        ∧ Step.Enlists Forest.ids (fun _ => [])
          (decorate function (Node.reserveLocals count function)))
      ∧ (b.forest.EvolvesBy (fun _ _ _ => False) (b.after step).forest
        ∧ Step.Enlists Builder.ids step.made (Builder.perform step)
        ∧ ∀ document, b.finish directives = .ok document →
          b.forest.EvolvesBy (fun _ _ _ => False) document.forest
            ∧ document.forest.ids = b.ids ++ [document.root])
      ∧ (∀ groups e, groupOverloads d = .ok groups e →
        d.forest.EvolvesBy (Change.regroup d.root).Rewrites e.forest
          ∧ e.forest.ids = d.forest.ids ++ groups)
      ∧ ∀ failure e, groupOverloads d = .error failure e →
        (d.forest.Treelike → e = d)
          ∧ ((∀ former node, d.forest.directivesOf d.root = .ok former →
              e.forest.node? d.root = some node →
              e.forest.Accepts d.root node (.document former)) →
            d.forest.EvolvesBy (fun _ _ _ => False) e.forest)
          ∧ d.forest.EvolvesBy (Emptied d.root) e.forest ∧ e.forest.ids = d.forest.ids := by
  refine ⟨⟨evolvesBy_after f change, Edit.enlists_run edit, enlists_decorate _ _⟩,
    ⟨Builder.evolvesBy_after b step, Builder.enlists_perform step, fun document h => ?_⟩,
    fun groups e h => ⟨evolvesBy_of_groupOverloads h, enlists_groupOverloads.of_ok h⟩,
    fun failure e h => ⟨fun tree => eq_of_groupOverloads_error tree h,
      fun accepts => contents_of_groupOverloads h accepts, emptied_of_groupOverloads h,
      enlists_groupOverloads.of_error h⟩⟩
  exact ⟨Builder.evolvesBy_finish h, Builder.ids_of_finish h⟩

/-- Two declarations of functions of one name and a document over them; a second document whose
segment lies beyond the store when it is made, and to which the same declarations are then
stored. -/
def stale : Document :=
  { (default : Document) with
    forest := Change.runAll empty
      [ .edit (.insert (.nameIdentifier ⟨1⟩) ⟨0, 1⟩),
        .edit (.insert (.function ⟨0⟩ NodeId.absent Segment.empty NodeId.absent) ⟨0, 1⟩),
        .edit (.insert (.funDirective ⟨1⟩ false) ⟨0, 1⟩),
        .edit (.insert (.nameIdentifier ⟨1⟩) ⟨1, 2⟩),
        .edit (.insert (.function ⟨3⟩ NodeId.absent Segment.empty NodeId.absent) ⟨1, 2⟩),
        .edit (.insert (.funDirective ⟨4⟩ false) ⟨1, 2⟩),
        .edit (.storeList [⟨2⟩, ⟨5⟩] "directives"),
        .edit (.insert (.document ⟨0, 2⟩) ⟨0, 2⟩),
        .edit (.insert (.document ⟨2, 2⟩) ⟨0, 2⟩),
        .edit (.storeList [⟨2⟩, ⟨5⟩] "directives") ]
    root := ⟨7⟩ }

/-- Grouping its declarations fails, and the second document is left without directives. -/
theorem contents_of_stale : ∃ refusal e, groupOverloads stale = .error (.refused refusal) e
    ∧ stale.forest.shape? ⟨7⟩ = some (.document ⟨2, 2⟩)
    ∧ e.forest.shape? ⟨7⟩ = some (.document Segment.empty) := by
  refine ⟨_, _, rfl, ?_, ?_⟩
  · decide +kernel
  · decide +kernel

end Document

end SyntaxForest
