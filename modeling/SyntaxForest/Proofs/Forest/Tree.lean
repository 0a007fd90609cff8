/-
**Forests of trees.**

The edges of a forest are kept twice: a node lists its children, and each child names its owner.
In a forest of trees the two say the same, no child is listed twice, and there is a rank that
grows from a node to its children, so that no node is under itself.  The numbers of the nodes are
no such rank, because a document may come to own groups that are younger than itself.

Main definitions:

* `Forest.OwnersList` — every owner lists the nodes that name it;
* `Forest.Treelike` — the forests of trees.

Main results:

* `Forest.Treelike.keep`, `Forest.Treelike.add`, `Forest.Treelike.replace`,
  `Forest.Treelike.acts` — **the acts keep a forest of trees,** as long as the segments of new
  nodes lie inside the store.
-/

import SyntaxForest.Proofs.Forest.Acts

set_option relaxedAutoImplicit false
set_option autoImplicit false

namespace SyntaxForest

namespace Forest

/-- Owners know what they own. -/
structure OwnersList (f : Forest) : Prop where
  mem : ∀ {owner child}, f.parent? child = some owner → child ∈ f.childList owner

/-- The two records of the edges agree and form trees. -/
structure Treelike (f : Forest) : Prop where
  stored : ∀ {id node}, f.node? id = some node → node.shape.Stored f.lists
  nodup : ∀ id, (f.childList id).Nodup
  /-- A node lists a child exactly when the child names it as its owner. -/
  linked : ∀ owner child, child ∈ f.childList owner ↔ f.parent? child = some owner
  /-- Some rank grows from a node to its children. -/
  ranked : ∃ rank : NodeId → Nat, ∀ {owner child},
    f.parent? child = some owner → rank owner < rank child

/-- The new nodes have their segments inside the store. -/
def storedShape (f : Forest) (shape : Shape) : Prop := shape.Stored f.lists

variable {f g : Forest} {id owner child : NodeId} {node : Node} {shape : Shape} {span : Span}

namespace OwnersList

theorem lt_size_of_parent? (owners : f.OwnersList) (h : f.parent? child = some owner) :
    owner.raw < f.size := by
  obtain ⟨node, hnode, -⟩ := mem_childList_iff.1 (owners.mem h)
  exact lt_size_of_node? hnode

/-- A free node has no owner: the owner it is free for is not made yet. -/
theorem parent?_of_free (owners : f.OwnersList) (h : f.IsFree ⟨f.size⟩ child) :
    f.parent? child = none := by
  obtain ⟨node, hnode, hnone | hself⟩ := h
  · rw [parent?_of_node? hnode, hnone]
  · have hparent : f.parent? child = some ⟨f.size⟩ := by rw [parent?_of_node? hnode, hself]
    exact absurd (owners.lt_size_of_parent? hparent) (Nat.lt_irrefl _)

end OwnersList

namespace Treelike

theorem ownersList (tree : f.Treelike) : f.OwnersList := ⟨fun h => (tree.linked _ _).2 h⟩

theorem lt_size_of_parent? (tree : f.Treelike) (h : f.parent? child = some owner) :
    owner.raw < f.size := tree.ownersList.lt_size_of_parent? h

theorem node?_of_mem (tree : f.Treelike) (h : child ∈ f.childList owner) :
    ∃ node, f.node? child = some node ∧ node.parent = some owner :=
  parent?_eq_some_iff.1 ((tree.linked owner child).1 h)

/-- Being a forest of trees is a matter of owners, children and segments. -/
theorem congr (tree : f.Treelike) (parents : ∀ id, g.parent? id = f.parent? id)
    (children : ∀ id, g.childList id = f.childList id)
    (stored : ∀ {id node}, g.node? id = some node → node.shape.Stored g.lists) : g.Treelike where
  stored := stored
  nodup id := by
    rw [children]
    exact tree.nodup id
  linked owner child := by
    rw [children, parents]
    exact tree.linked owner child
  ranked := by
    obtain ⟨rank, hrank⟩ := tree.ranked
    refine ⟨rank, fun {owner child} h => hrank ?_⟩
    rwa [← parents]

end Treelike

theorem treelike_empty : Forest.empty.Treelike where
  stored h := by
    rw [node?_eq_none_of_le (Nat.zero_le _)] at h
    cases h
  nodup id := by
    rw [childList_of_le (Nat.zero_le _)]
    exact List.nodup_nil
  linked owner child := by
    rw [parent?_of_le (Nat.zero_le _), childList_of_le (Nat.zero_le _)]
    exact ⟨fun h => (nomatch h), fun h => (nomatch h)⟩
  ranked := by
    refine ⟨fun _ => 0, fun {owner child} h => ?_⟩
    rw [parent?_of_le (Nat.zero_le _)] at h
    cases h

/-! ### Keeping a sequence -/

theorem childList_keep (stored : ∀ {id node}, f.node? id = some node → node.shape.Stored f.lists)
    (ids : List NodeId) (id : NodeId) : (f.keep ids).childList id = f.childList id := by
  cases hn : f.node? id with
  | none => rw [childList, childList, children?, children?, node?_keep, hn]; rfl
  | some node =>
      rw [childList_of_node? hn, childList_of_node? (by rwa [node?_keep])]
      exact Shape.children_append (stored hn) ids

theorem Treelike.keep (tree : f.Treelike) (ids : List NodeId) : (f.keep ids).Treelike :=
  tree.congr (fun _ => rfl) (childList_keep tree.stored ids)
    fun h => (tree.stored h).append ids

/-! ### A node more -/

section Add

variable {donor : Option NodeId}

theorem parent?_add_self (admits : f.Admits shape span) :
    (f.add shape span donor).parent? ⟨f.size⟩ = none := by
  rw [parent?_of_node? (node?_add_self admits.notMem_children)]
  rfl

theorem parent?_add_of_mem (admits : f.Admits shape span)
    (h : child ∈ shape.children f.lists) :
    (f.add shape span donor).parent? child = some ⟨f.size⟩ := by
  obtain ⟨node, hnode, -⟩ := admits.free child h
  rw [parent?, node?_add_of_lt (lt_size_of_node? hnode), hnode, Option.map_some,
    adopted_of_mem h]
  rfl

theorem parent?_add_of_notMem (hne : child.raw ≠ f.size) (h : child ∉ shape.children f.lists) :
    (f.add shape span donor).parent? child = f.parent? child := by
  rcases Nat.lt_or_gt_of_ne hne with hlt | hgt
  · rw [parent?, parent?, node?_add_of_lt hlt]
    cases f.node? child with
    | none => rfl
    | some node => rw [Option.map_some, adopted_of_notMem h]
  · rw [parent?_of_le (by rw [size_add]; omega), parent?_of_le (Nat.le_of_lt hgt)]

theorem childList_add_self (admits : f.Admits shape span) :
    (f.add shape span donor).childList ⟨f.size⟩ = shape.children f.lists := by
  rw [childList_of_node? (node?_add_self admits.notMem_children)]
  rfl

theorem childList_add_of_ne (hne : id.raw ≠ f.size) :
    (f.add shape span donor).childList id = f.childList id := by
  rcases Nat.lt_or_gt_of_ne hne with hlt | hgt
  · rw [childList, childList, children?, children?, node?_add_of_lt hlt]
    cases f.node? id with
    | none => rfl
    | some node =>
        rw [Option.map_some, Option.map_some, Option.map_some, childrenOf, adopted_shape]
        rfl
  · rw [childList_of_le (by rw [size_add]; omega), childList_of_le (Nat.le_of_lt hgt)]

theorem Treelike.linked_add (tree : f.Treelike) (admits : f.Admits shape span)
    (owner child : NodeId) :
    child ∈ (f.add shape span donor).childList owner ↔
      (f.add shape span donor).parent? child = some owner := by
  by_cases ho : owner.raw = f.size
  · obtain rfl := NodeId.eq_of_raw ho
    rw [childList_add_self admits]
    constructor
    · exact parent?_add_of_mem admits
    · intro h
      by_cases hc : child.raw = f.size
      · obtain rfl := NodeId.eq_of_raw hc
        rw [parent?_add_self admits] at h
        cases h
      · refine Decidable.byContradiction fun hm => ?_
        rw [parent?_add_of_notMem hc hm] at h
        exact Nat.lt_irrefl _ (tree.lt_size_of_parent? h)
  · -- another owner keeps its children, since a child of the new node had no owner
    rw [childList_add_of_ne ho, tree.linked]
    by_cases hm : child ∈ shape.children f.lists
    · rw [parent?_add_of_mem admits hm, tree.ownersList.parent?_of_free (admits.free child hm)]
      exact ⟨fun h => (nomatch h),
        fun h => absurd (congrArg NodeId.raw (Option.some.inj h)).symm ho⟩
    · by_cases hc : child.raw = f.size
      · obtain rfl := NodeId.eq_of_raw hc
        have hnone : f.parent? ⟨f.size⟩ = none := parent?_of_le (Nat.le_refl _)
        rw [parent?_add_self admits, hnone]
      · rw [parent?_add_of_notMem hc hm]

/-- A new node over nodes without an owner starts a tree of its own. -/
theorem Treelike.add (tree : f.Treelike) (admits : f.Admits shape span)
    (stored : shape.Stored f.lists) : (f.add shape span donor).Treelike where
  stored := by
    intro id node h
    rcases admits.node?_add_cases h with ⟨old, hold, rfl⟩ | ⟨rfl, rfl⟩
    · rw [adopted_shape]
      exact tree.stored hold
    · exact stored
  nodup id := by
    by_cases hid : id.raw = f.size
    · obtain rfl := NodeId.eq_of_raw hid
      rw [childList_add_self admits]
      exact admits.nodup
    · rw [childList_add_of_ne hid]
      exact tree.nodup id
  linked := tree.linked_add admits
  ranked := by
    obtain ⟨rank, hrank⟩ := tree.ranked
    -- the new node ranks below everything else
    refine ⟨fun id => if id.raw = f.size then 0 else rank id + 1, fun {owner child} h => ?_⟩
    have hc : child.raw ≠ f.size := by
      intro hc
      obtain rfl := NodeId.eq_of_raw hc
      rw [parent?_add_self admits] at h
      cases h
    by_cases hm : child ∈ shape.children f.lists
    · rw [parent?_add_of_mem admits hm] at h
      cases h
      simp only [if_true, if_neg hc]
      exact Nat.succ_pos _
    · rw [parent?_add_of_notMem hc hm] at h
      have ho : owner.raw ≠ f.size := Nat.ne_of_lt (tree.lt_size_of_parent? h)
      simp only [if_neg hc, if_neg ho]
      exact Nat.succ_lt_succ (hrank h)

end Add

/-! ### Decorations -/

theorem parent?_replace {old new : Node} (here : f.node? id = some old)
    (redecorated : old.Redecorated new) (other : NodeId) :
    (f.replace id new).parent? other = f.parent? other := by
  by_cases ho : other = id
  · subst ho
    rw [parent?_of_node? here, parent?_of_node? (node?_replace_self here), redecorated.parent]
  · rw [parent?, parent?, node?_replace_of_ne ho]

theorem childList_replace {old new : Node} (here : f.node? id = some old)
    (redecorated : old.Redecorated new) (other : NodeId) :
    (f.replace id new).childList other = f.childList other := by
  by_cases ho : other = id
  · subst ho
    rw [childList_of_node? here, childList_of_node? (node?_replace_self here)]
    exact redecorated.children f.lists
  · rw [childList, childList, children?, children?, node?_replace_of_ne ho]
    rfl

theorem Treelike.replace {old new : Node} (tree : f.Treelike) (here : f.node? id = some old)
    (redecorated : old.Redecorated new) : (f.replace id new).Treelike := by
  refine tree.congr (parent?_replace here redecorated) (childList_replace here redecorated) ?_
  intro other node h
  by_cases ho : other = id
  · subst ho
    rw [node?_replace_self here] at h
    cases h
    intro s hs
    rw [redecorated.segments] at hs
    exact tree.stored here s hs
  · rw [node?_replace_of_ne ho] at h
    exact tree.stored h

/-- **The acts keep a forest of trees.** -/
theorem Treelike.acts (tree : f.Treelike) (acts : Acts storedShape f g) : g.Treelike := by
  refine acts.preserves ?_ tree
  intro f g act tree
  cases act with
  | keep ids => exact tree.keep ids
  | add admits stored _ => exact tree.add admits stored
  | decorate here redecorated => exact tree.replace here redecorated

end Forest

end SyntaxForest
