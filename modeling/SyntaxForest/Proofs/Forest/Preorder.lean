/-
**The tree under a node.**

The recursive walk lists a node and then, child by child, what is under its children.  In a forest
of trees it ends, it lists exactly the nodes from which following the owners leads to its start,
and it lists none of them twice.  The walk that keeps the nodes still to come on a stack finds the
same nodes in the same order.

Main definitions:

* `Forest.Under` — a node that is another one or is under it;
* `Forest.Suffices` — a number of levels that is enough for a walk from a node;
* `Forest.walkF`, `Forest.walk` — the recursive walk.

Main results:

* `Forest.Treelike.under_iff_lineage` — what a node is under are its owners;
* `Forest.Treelike.walk_eq` — **the walk is a node and then the walks of its children**;
* `Forest.Treelike.mem_walk_iff`, `Forest.nodup_walk` — what it lists, and that it lists it once;
* `Forest.Treelike.descendants_eq` — **the walk with a stack is the recursive walk.**
-/

import SyntaxForest.Proofs.Forest.Ancestry
import Mathlib.Data.List.Nodup
import Mathlib.Logic.Relation

set_option relaxedAutoImplicit false
set_option autoImplicit false

namespace SyntaxForest

namespace Forest

/-- A node is another one or is under it: following the owners leads from it to the other. -/
def Under (f : Forest) : NodeId → NodeId → Prop :=
  Relation.ReflTransGen fun child owner => f.parent? child = some owner

variable {f : Forest} {id root owner child n : NodeId} {owners : List NodeId} {fuel : Nat}

/-! ### Under a node -/

theorem Under.step (h : f.Under n child) (parent : f.parent? child = some owner) :
    f.Under n owner := Relation.ReflTransGen.tail h parent

/-- What a node is under, but is not itself, its owner is under. -/
theorem Under.of_ne (h : f.Under child n) (hne : child ≠ n)
    (parent : f.parent? child = some owner) : f.Under owner n := by
  rcases Relation.ReflTransGen.cases_head h with rfl | ⟨other, hother, rest⟩
  · exact absurd rfl hne
  · have hsame : other = owner := Option.some.inj (hother.symm.trans parent)
    exact hsame ▸ rest

theorem Under.total {m : NodeId} (h : f.Under n id) (h' : f.Under n m) :
    f.Under id m ∨ f.Under m id :=
  Relation.ReflTransGen.total_of_right_unique
    (fun _ _ _ ha hb => Option.some.inj (ha.symm.trans hb)) h h'

/-- What a node is under has a smaller rank, or it is the node itself. -/
theorem Under.rank_lt {rank : NodeId → Nat}
    (hrank : ∀ {owner child}, f.parent? child = some owner → rank owner < rank child)
    (h : f.Under n id) : n = id ∨ rank id < rank n := by
  induction h with
  | refl => exact Or.inl rfl
  | tail _ parent ih =>
      rcases ih with rfl | hlt
      · exact Or.inr (hrank parent)
      · exact Or.inr (Nat.lt_trans (hrank parent) hlt)

/-- Two nodes that are under each other are one. -/
theorem Treelike.under_antisymm (tree : f.Treelike) (h : f.Under n id) (h' : f.Under id n) :
    n = id := by
  obtain ⟨rank, hrank⟩ := tree.ranked
  rcases h.rank_lt hrank with heq | hlt
  · exact heq
  · rcases h'.rank_lt hrank with heq | hlt'
    · exact heq.symm
    · exact absurd hlt' (Nat.lt_asymm hlt)

/-- A node is not under its children. -/
theorem Treelike.not_under_child (tree : f.Treelike) (parent : f.parent? child = some owner) :
    ¬ f.Under owner child := by
  intro h
  obtain ⟨rank, hrank⟩ := tree.ranked
  have hlt := hrank parent
  rw [tree.under_antisymm h (Relation.ReflTransGen.single parent)] at hlt
  exact Nat.lt_irrefl _ hlt

/-- A node is under the owners in its lineage. -/
theorem IsLineage.under (h : f.IsLineage n owners) (hm : root ∈ owners) : f.Under n root := by
  induction owners generalizing n with
  | nil => cases hm
  | cons owner rest ih =>
      rcases List.mem_cons.1 hm with rfl | hm
      · exact Relation.ReflTransGen.single h.1
      · exact Relation.ReflTransGen.head h.1 (ih h.2 hm)

/-- **What a node is under are itself and its owners.** -/
theorem Treelike.under_iff_lineage (tree : f.Treelike) :
    f.Under n root ↔ n = root ∨ ∃ owners, f.IsLineage n owners ∧ root ∈ owners := by
  constructor
  · intro h
    induction h using Relation.ReflTransGen.head_induction_on with
    | refl => exact Or.inl rfl
    | @head n owner parent _ ih =>
        obtain ⟨rest, hrest⟩ := tree.exists_lineage owner
        refine Or.inr ⟨owner :: rest, ⟨parent, hrest⟩, ?_⟩
        rcases ih with rfl | ⟨owners, howners, hroot⟩
        · exact List.mem_cons_self
        · rw [howners.unique hrest] at hroot
          exact List.mem_cons_of_mem _ hroot
  · rintro (rfl | ⟨owners, howners, hroot⟩)
    · exact Relation.ReflTransGen.refl
    · exact howners.under hroot

/-! ### Levels -/

/-- A number of levels is more than there are from a node downwards. -/
def Suffices (f : Forest) (fuel : Nat) (id : NodeId) : Prop :=
  id.raw < f.size ∧ ∃ owners, f.IsLineage id owners ∧ f.size < owners.length + fuel

theorem Treelike.suffices_succ_size (tree : f.Treelike) (known : id.raw < f.size) :
    f.Suffices (f.size + 1) id := by
  obtain ⟨owners, howners⟩ := tree.exists_lineage id
  exact ⟨known, owners, howners, by omega⟩

theorem Suffices.mono {fuel' : Nat} (h : f.Suffices fuel id) (le : fuel ≤ fuel') :
    f.Suffices fuel' id := by
  obtain ⟨known, owners, howners, hlt⟩ := h
  exact ⟨known, owners, howners, by omega⟩

theorem Treelike.exists_level (tree : f.Treelike) (h : f.Suffices fuel id) :
    ∃ levels, fuel = levels + 1 := by
  obtain ⟨known, owners, howners, hlt⟩ := h
  have := tree.length_lineage_lt known howners
  exact ⟨fuel - 1, by omega⟩

/-- One level less suffices for a child. -/
theorem Treelike.suffices_child (tree : f.Treelike) (h : f.Suffices (fuel + 1) id)
    (hc : child ∈ f.childList id) : f.Suffices fuel child := by
  obtain ⟨-, owners, howners, hlt⟩ := h
  obtain ⟨node, hnode, hparent⟩ := tree.node?_of_mem hc
  refine ⟨lt_size_of_node? hnode, id :: owners, ⟨(tree.linked id child).1 hc, howners⟩, ?_⟩
  rw [List.length_cons]
  omega

/-! ### The recursive walk -/

/-- A node and what is under it, at most `fuel` levels deep. -/
def walkF (f : Forest) : (fuel : Nat) → NodeId → List NodeId
  | 0, _ => []
  | fuel + 1, id => id :: (f.childList id).flatMap (walkF f fuel)

/-- **A node and what is under it**: the node, and then the walk of each child in order. -/
def walk (f : Forest) (id : NodeId) : List NodeId := f.walkF (f.size + 1) id

/-- Levels beyond those that suffice do not matter. -/
theorem Treelike.walkF_congr (tree : f.Treelike) {fuel' : Nat} (h : f.Suffices fuel id)
    (h' : f.Suffices fuel' id) : f.walkF fuel id = f.walkF fuel' id := by
  induction fuel generalizing fuel' id with
  | zero =>
      obtain ⟨levels, hlevels⟩ := tree.exists_level h
      cases hlevels
  | succ fuel ih =>
      obtain ⟨levels, rfl⟩ := tree.exists_level h'
      rw [walkF, walkF]
      congr 1
      refine List.flatMap_congr fun child hc => ?_
      exact ih (tree.suffices_child h hc) (tree.suffices_child h' hc)

theorem Treelike.walkF_eq_walk (tree : f.Treelike) (h : f.Suffices fuel id) :
    f.walkF fuel id = f.walk id := tree.walkF_congr h (tree.suffices_succ_size h.1)

/-- **The walk is a node and then the walks of its children.** -/
theorem Treelike.walk_eq (tree : f.Treelike) (known : id.raw < f.size) :
    f.walk id = id :: (f.childList id).flatMap f.walk := by
  rw [walk, walkF]
  congr 1
  refine List.flatMap_congr fun child hc => ?_
  exact tree.walkF_eq_walk (tree.suffices_child (tree.suffices_succ_size known) hc)

theorem Treelike.under_of_mem_walkF (tree : f.Treelike) (h : n ∈ f.walkF fuel root) :
    f.Under n root := by
  induction fuel generalizing root with
  | zero => cases h
  | succ fuel ih =>
      rcases List.mem_cons.1 h with rfl | h
      · exact Relation.ReflTransGen.refl
      · obtain ⟨child, hc, hn⟩ := List.mem_flatMap.1 h
        exact (ih hn).step ((tree.linked root child).1 hc)

/-- **The walk lists what is under its start.** -/
theorem Treelike.mem_walk_iff (tree : f.Treelike) (known : root.raw < f.size) :
    n ∈ f.walk root ↔ f.Under n root := by
  refine ⟨fun h => tree.under_of_mem_walkF h, fun h => ?_⟩
  induction h with
  | refl =>
      rw [tree.walk_eq known]
      exact List.mem_cons_self
  | @tail child root _ parent ih =>
      have hc := (tree.linked root child).2 parent
      obtain ⟨node, hnode, -⟩ := tree.node?_of_mem hc
      rw [tree.walk_eq known]
      exact List.mem_cons_of_mem _ (List.mem_flatMap.2 ⟨child, hc, ih (lt_size_of_node? hnode)⟩)

/-- What is listed exists. -/
theorem Treelike.lt_size_of_mem_walk (tree : f.Treelike) (known : root.raw < f.size)
    (h : n ∈ f.walk root) : n.raw < f.size := by
  rcases Relation.ReflTransGen.cases_head ((tree.mem_walk_iff known).1 h) with rfl | ⟨owner, hp, -⟩
  · exact known
  · obtain ⟨node, hnode, -⟩ := parent?_eq_some_iff.1 hp
    exact lt_size_of_node? hnode

theorem Treelike.nodup_walkF (tree : f.Treelike) : (f.walkF fuel root).Nodup := by
  induction fuel generalizing root with
  | zero => exact List.nodup_nil
  | succ fuel ih =>
      refine List.nodup_cons.2 ⟨fun hm => ?_, List.nodup_flatMap.2 ⟨fun _ _ => ih, ?_⟩⟩
      · obtain ⟨child, hc, hroot⟩ := List.mem_flatMap.1 hm
        exact tree.not_under_child ((tree.linked root child).1 hc) (tree.under_of_mem_walkF hroot)
      · -- what were under two children would put one of them under the other
        refine (List.Nodup.pairwise_of_forall_ne (tree.nodup root) ?_)
        intro child hc other ho hne n hn hn'
        have hchild := (tree.linked root child).1 hc
        have hother := (tree.linked root other).1 ho
        rcases (tree.under_of_mem_walkF hn).total (tree.under_of_mem_walkF hn') with h | h
        · exact tree.not_under_child hother (h.of_ne hne hchild)
        · exact tree.not_under_child hchild (h.of_ne hne.symm hother)

/-- **The walk lists nothing twice.** -/
theorem Treelike.nodup_walk (tree : f.Treelike) (root : NodeId) : (f.walk root).Nodup :=
  tree.nodup_walkF

/-! ### The walk with a stack -/

/-- The stack holds the starts of the walks still to come. -/
theorem Treelike.descendantsFrom_eq (tree : f.Treelike) {found : Array NodeId} {stack : Stack}
    (h : f.Roomy stack) : (f.descendantsFrom found stack).map (·.toList)
      = .ok (found.toList ++ stack.flatMap fun entry => f.walkF entry.2 entry.1) := by
  induction found, stack using descendantsFrom.induct f with
  | case1 found => simp [descendantsFrom, Except.map]
  | case2 found id rest => exact absurd (tree.room_pos h) (Nat.lt_irrefl 0)
  | case3 found id room rest hnone =>
      obtain ⟨node, hnode⟩ := node?_isSome_iff.2 (h _ List.mem_cons_self).1
      rw [children?, hnode] at hnone
      cases hnone
  | case4 found id room rest children hc ih =>
      have hchildren : f.childList id = children := by rw [childList, hc, Option.getD_some]
      have hwalks : (withRoom room children).flatMap (fun entry => f.walkF entry.2 entry.1)
          = children.flatMap (f.walkF room) := by
        rw [withRoom, List.flatMap_map]
      rw [descendantsFrom]
      split
      · next hnone => rw [hc] at hnone; cases hnone
      · next children' hc' =>
          obtain rfl : children = children' := Option.some.inj (hc.symm.trans hc')
          rw [ih (tree.roomy_children hc h), List.flatMap_append, hwalks, Array.toList_push,
            List.flatMap_cons, walkF, hchildren]
          simp only [List.append_assoc, List.cons_append, List.nil_append]

/-- **The walk with a stack is the recursive walk.** -/
theorem Treelike.descendants_eq (tree : f.Treelike) (known : root.raw < f.size) :
    f.descendants root = .ok (f.walk root) := by
  have hroomy : f.Roomy [(root, f.size + 1)] := by
    intro entry hm
    obtain rfl := List.mem_singleton.1 hm
    exact tree.suffices_succ_size known
  rw [descendants, if_pos (contains_iff.2 known), tree.descendantsFrom_eq hroomy]
  simp [walk]

end Forest

end SyntaxForest
