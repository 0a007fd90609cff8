/-
**Segments that lie beyond the store.**

A node may be made whose segment does not lie inside the store.  It reads as nothing then, so there
is nothing to check, and the node owns nothing.  That changes when a sequence is kept and the store
comes to reach as far as the segment: the node now lists what stands there, though nobody asked
whether it exists and has no owner, and none of it names the node as its owner.  This module says
that nothing else is needed: keeping a sequence changes the children of exactly the nodes with a
segment that the store comes to reach, and where the makers of nodes keep their promise it changes
none.

Main definitions:

* `Segment.Overtaken` — a segment beyond the store that the store comes to reach.

Main results:

* `Segment.entries_append_eq_iff`, `Shape.children_eq_iff` — what makes a difference to a segment,
  and to a node;
* `Forest.childList_of_storeList` — **keeping a sequence changes the children of exactly the nodes
  with a segment that is overtaken**, and of none after a history;
* `Forest.childList_of_beyond` — a document that comes by a child which names no owner.
-/

import SyntaxForest.Proofs.Forest.History

set_option relaxedAutoImplicit false
set_option autoImplicit false

namespace SyntaxForest

variable {store other : Array NodeId} {s : Segment} {shape : Shape}

/-! ### Segments and shapes -/

/-- A segment lies beyond a store, and inside it when a sequence is kept. -/
def Segment.Overtaken (store : Array NodeId) (ids : List NodeId) (s : Segment) : Prop :=
  ¬s.Inside store ∧ s.Inside (store ++ ids)

instance (store : Array NodeId) (ids : List NodeId) (s : Segment) :
    Decidable (s.Overtaken store ids) :=
  inferInstanceAs (Decidable (_ ∧ _))

theorem Segment.entries_of_not_inside (beyond : ¬s.Inside store) : s.entries store = [] :=
  not_ne_iff.1 fun full => beyond (inside_of_entries_ne_nil full)

/-- A segment that lies inside a store has as many entries as its length says. -/
theorem Segment.length_entries (inside : s.Inside store) : (s.entries store).length = s.length := by
  unfold entries isEmpty
  rcases inside with hnone | hfits
  · simp only [hnone, decide_true, if_true, List.length_nil]
  · by_cases hnone : s.length = 0
    · simp only [hnone, decide_true, if_true, List.length_nil]
    · simp only [hnone, decide_false, Bool.false_eq_true, if_false, if_pos hfits,
        Array.length_toList, Array.size_extract]
      omega

/-- **Keeping a sequence makes a difference to a segment exactly when it is overtaken.** -/
theorem Segment.entries_append_eq_iff (ids : List NodeId) :
    s.entries (store ++ ids) = s.entries store ↔ ¬s.Overtaken store ids := by
  constructor
  · rintro same ⟨beyond, inside⟩
    have hlength := length_entries inside
    rw [same, entries_of_not_inside beyond] at hlength
    exact beyond (Or.inl hlength.symm)
  · intro kept
    by_cases inside : s.Inside store
    · exact entries_append inside ids
    · rw [entries_of_not_inside inside,
        entries_of_not_inside fun reached => kept ⟨inside, reached⟩]

/-- A shape has the same children in two stores exactly when its segments read the same. -/
theorem Shape.children_eq_iff : shape.children store = shape.children other ↔
    ∀ s ∈ shape.segments, s.entries store = s.entries other := by
  constructor
  · intro same
    cases shape <;> simp_all [Shape.children, Shape.segments]
  · exact Shape.children_congr

namespace Forest

variable {f g : Forest} {id : NodeId} {node : Node}

/-! ### Nodes -/

theorem childList_keep_eq_iff (here : f.node? id = some node) (ids : List NodeId) :
    (f.keep ids).childList id = f.childList id ↔
      ∀ s ∈ node.shape.segments, ¬s.Overtaken f.lists ids := by
  rw [childList_of_node? here, childList_of_node? (by rwa [node?_keep])]
  exact Shape.children_eq_iff.trans (forall₂_congr fun s _ => Segment.entries_append_eq_iff ids)

/-- **Keeping a sequence changes the children of exactly the nodes with a segment that it
overtakes.**  Whatever the forest, a sequence that is refused changes nothing, and one that is kept
leaves a node its children exactly when it overtakes no segment of the node; one that is overtaken
reads as nothing before and has as many entries as its length says afterwards.  After a history
with promised segments there is none to overtake: no sequence changes any children, and the
children of a node are the nodes that name it as their owner, before and after. -/
theorem childList_of_storeList (f : Forest) (ids : List NodeId) (what : String) :
    (∀ refusal g, storeList ids what f = .error refusal g → g = f)
      ∧ (∀ segment g, storeList ids what f = .ok segment g → ∀ id node, f.node? id = some node →
        g.node? id = some node
          ∧ (g.childList id = f.childList id ↔
            ∀ s ∈ node.shape.segments, ¬s.Overtaken f.lists ids)
          ∧ ∀ s ∈ node.shape.segments, s.Overtaken f.lists ids →
            f.list s = [] ∧ (g.list s).length = s.length ∧ s.length ≠ 0)
      ∧ (f.Grown → ∀ id,
        (stateOf (storeList ids what f)).childList id = f.childList id
          ∧ ∀ child, child ∈ (stateOf (storeList ids what f)).childList id ↔
            f.parent? child = some id) := by
  refine ⟨fun refusal g refused => storeList_refused refused, fun segment g kept id node here => ?_,
    fun grown id => ?_⟩
  · obtain ⟨rfl, -⟩ := storeList_eq_ok_iff.1 kept
    refine ⟨by rwa [node?_keep], childList_keep_eq_iff here ids, fun s _ overtaken => ?_⟩
    exact ⟨Segment.entries_of_not_inside overtaken.1, Segment.length_entries overtaken.2,
      fun hnone => overtaken.1 (Or.inl hnone)⟩
  · have tree := grown.treelike
    have same : (stateOf (storeList ids what f)).childList id = f.childList id := by
      cases hr : storeList ids what f with
      | ok segment g =>
          obtain ⟨rfl, -⟩ := storeList_eq_ok_iff.1 hr
          exact childList_keep tree.stored ids id
      | error refusal g => rw [stateOf, storeList_refused hr]
    exact ⟨same, fun child => same ▸ tree.linked id child⟩

/-- A type body, and a document over the first entry of a store without entries. -/
def beyond : Forest :=
  Change.runAll empty
    [.edit (.insert .typeBody ⟨0, 0⟩), .edit (.insert (.document ⟨0, 1⟩) ⟨0, 0⟩)]

/-- The document comes by the type body, which names no owner. -/
theorem childList_of_beyond : ∃ segment g, storeList [⟨0⟩] "directives" beyond = .ok segment g
    ∧ beyond.childList ⟨1⟩ = [] ∧ g.childList ⟨1⟩ = [⟨0⟩] ∧ g.parent? ⟨0⟩ = none :=
  ⟨_, _, rfl, by decide, by decide, by decide⟩

/-- What is kept after two declarations under a document changes no children; the document over the
first entry of a store without entries is overtaken by the first entry. -/
theorem childList_of_kept_after_declarations :
    ((stateOf (storeList [⟨2⟩] "directives" (Change.runAll empty twoDeclarations))).childList ⟨8⟩
        = [⟨2⟩, ⟨5⟩, ⟨7⟩])
      ∧ ∃ g, storeList [⟨0⟩] "directives" beyond = .ok ⟨0, 1⟩ g
        ∧ g.childList ⟨1⟩ ≠ beyond.childList ⟨1⟩ := by
  constructor
  · have grown : (Change.runAll empty twoDeclarations).Grown := ⟨_, by decide, rfl⟩
    rw [((childList_of_storeList _ [⟨2⟩] "directives").2.2 grown ⟨8⟩).1]
    decide
  · refine ⟨beyond.keep [⟨0⟩], rfl, fun same => ?_⟩
    have here : beyond.node? ⟨1⟩ = some (Node.fresh (.document ⟨0, 1⟩) ⟨0, 0⟩ none) := by decide
    have kept := (childList_of_storeList beyond [⟨0⟩] "directives").2.1 ⟨0, 1⟩ _ rfl ⟨1⟩ _ here
    exact kept.2.1.1 same ⟨0, 1⟩ (List.mem_singleton_self _) (by decide)

end Forest

end SyntaxForest
