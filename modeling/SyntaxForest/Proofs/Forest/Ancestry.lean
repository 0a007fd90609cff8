/-
**Owners above a node.**

In a forest of trees the owners above a node are distinct, so there are fewer of them than nodes.
Hence walks that allow paths as long as the number of nodes never stop short: the walk upwards
finds all owners, and the check of the owner links ends and succeeds.

Main definitions:

* `Forest.IsLineage` — the owners above a node, nearest first.

Main results:

* `Forest.Treelike.exists_lineage`, `Forest.Treelike.length_lineage_lt` — every node has a lineage,
  shorter than the number of nodes;
* `Forest.Treelike.ancestors_eq` — **the walk upwards finds the lineage**;
* `Forest.Treelike.verify_eq` — **the owner links of a forest of trees are in order**;
* `Forest.Treelike.wellFounded` — no node is above itself.
-/

import SyntaxForest.Forest.Walk
import SyntaxForest.Proofs.Forest.Tree
import Mathlib.Data.List.Perm.Subperm

set_option relaxedAutoImplicit false
set_option autoImplicit false

namespace SyntaxForest

namespace Forest

/-- The owners above a node, nearest first. -/
def IsLineage (f : Forest) : NodeId → List NodeId → Prop
  | id, [] => f.parent? id = none
  | id, owner :: rest => f.parent? id = some owner ∧ IsLineage f owner rest

variable {f : Forest} {id owner child : NodeId} {owners : List NodeId}

/-- A node has one lineage. -/
theorem IsLineage.unique {others : List NodeId} (h : f.IsLineage id owners)
    (h' : f.IsLineage id others) : owners = others := by
  induction owners generalizing id others with
  | nil =>
      cases others with
      | nil => rfl
      | cons other rest =>
          rw [IsLineage] at h
          rw [IsLineage, h] at h'
          exact absurd h'.1 (by simp)
  | cons owner rest ih =>
      cases others with
      | nil =>
          rw [IsLineage] at h'
          rw [IsLineage, h'] at h
          exact absurd h.1 (by simp)
      | cons other rest' =>
          have hsame : owner = other := Option.some.inj (h.1.symm.trans h'.1)
          subst hsame
          rw [ih h.2 h'.2]

/-- Along a lineage a rank falls. -/
theorem IsLineage.rank_lt {rank : NodeId → Nat}
    (hrank : ∀ {owner child}, f.parent? child = some owner → rank owner < rank child)
    (h : f.IsLineage id owners) : ∀ above ∈ owners, rank above < rank id := by
  induction owners generalizing id with
  | nil => exact fun above hm => (nomatch hm)
  | cons owner rest ih =>
      intro above hm
      rcases List.mem_cons.1 hm with rfl | hm
      · exact hrank h.1
      · exact Nat.lt_trans (ih h.2 above hm) (hrank h.1)

theorem Treelike.lt_size_of_mem_lineage (tree : f.Treelike) (h : f.IsLineage id owners) :
    ∀ above ∈ owners, above.raw < f.size := by
  induction owners generalizing id with
  | nil => exact fun above hm => (nomatch hm)
  | cons owner rest ih =>
      intro above hm
      rcases List.mem_cons.1 hm with rfl | hm
      · exact tree.lt_size_of_parent? h.1
      · exact ih h.2 above hm

/-- No node is above itself, and no owner is met twice on the way up. -/
theorem Treelike.nodup_lineage (tree : f.Treelike) (h : f.IsLineage id owners) :
    (id :: owners).Nodup := by
  obtain ⟨rank, hrank⟩ := tree.ranked
  induction owners generalizing id with
  | nil => exact List.nodup_cons.2 ⟨List.not_mem_nil, List.nodup_nil⟩
  | cons owner rest ih =>
      refine List.nodup_cons.2 ⟨fun hm => ?_, ih h.2⟩
      exact Nat.lt_irrefl _ (h.rank_lt hrank id hm)

theorem Treelike.exists_lineage (tree : f.Treelike) (id : NodeId) :
    ∃ owners, f.IsLineage id owners := by
  obtain ⟨rank, hrank⟩ := tree.ranked
  -- induction on the rank, which falls on the way up
  induction hr : rank id using Nat.strongRecOn generalizing id with
  | _ r ih =>
      cases hp : f.parent? id with
      | none => exact ⟨[], hp⟩
      | some owner =>
          obtain ⟨rest, hrest⟩ := ih (rank owner) (hr ▸ hrank hp) owner rfl
          exact ⟨owner :: rest, hp, hrest⟩

/-- The owners above a node are fewer than the nodes. -/
theorem Treelike.length_lineage_lt (tree : f.Treelike) (hid : id.raw < f.size)
    (h : f.IsLineage id owners) : owners.length < f.size := by
  have hsub : id :: owners ⊆ f.ids := by
    intro above hm
    refine List.mem_map.2 ⟨above.raw, List.mem_range.2 ?_, rfl⟩
    rcases List.mem_cons.1 hm with rfl | hm
    · exact hid
    · exact tree.lt_size_of_mem_lineage h above hm
  have hle := ((tree.nodup_lineage h).subperm hsub).length_le
  rw [ids, List.length_map, List.length_range, List.length_cons] at hle
  exact hle

theorem Treelike.wellFounded (tree : f.Treelike) :
    WellFounded fun owner child => f.parent? child = some owner := by
  obtain ⟨rank, hrank⟩ := tree.ranked
  exact Subrelation.wf (fun h => hrank h) (measure rank).wf

/-! ### Upwards -/

theorem ancestorsF_eq (tree : f.Treelike) (hid : id.raw < f.size) (h : f.IsLineage id owners)
    {fuel : Nat} (hfuel : owners.length < fuel) : f.ancestorsF fuel id = .ok owners := by
  induction owners generalizing id fuel with
  | nil =>
      obtain ⟨fuel, rfl⟩ : ∃ k, fuel = k + 1 := ⟨fuel - 1, by omega⟩
      obtain ⟨node, hnode⟩ := node?_isSome_iff.2 hid
      have hparent : node.parent = none := by rw [← parent?_of_node? hnode]; exact h
      simp only [ancestorsF, hnode, hparent]
  | cons owner rest ih =>
      rw [List.length_cons] at hfuel
      obtain ⟨fuel, rfl⟩ : ∃ k, fuel = k + 1 := ⟨fuel - 1, by omega⟩
      obtain ⟨node, hnode⟩ := node?_isSome_iff.2 hid
      have hparent : node.parent = some owner := by rw [← parent?_of_node? hnode]; exact h.1
      have hrest := ih (tree.lt_size_of_parent? h.1) h.2 (Nat.lt_of_succ_lt_succ hfuel)
      simp only [ancestorsF, hnode, hparent, hrest]

/-- **The walk upwards finds the lineage.** -/
theorem Treelike.ancestors_eq (tree : f.Treelike) (hid : id.raw < f.size)
    (h : f.IsLineage id owners) : f.ancestors id = .ok owners :=
  ancestorsF_eq tree hid h (Nat.lt_succ_of_lt (tree.length_lineage_lt hid h))

/-! ### The owner links -/

theorem checkOwnerLinks_eq_ok {children : List NodeId}
    (h : ∀ child ∈ children, f.parent? child = some owner) :
    f.checkOwnerLinks owner children = .ok () := by
  induction children with
  | nil => rfl
  | cons child rest ih =>
      obtain ⟨node, hnode, hparent⟩ := parent?_eq_some_iff.1 (h child List.mem_cons_self)
      simp only [checkOwnerLinks, hnode, hparent, if_true]
      exact ih fun c hc => h c (List.mem_cons_of_mem _ hc)

/-- A stack whose entries leave room for the longest path below them. -/
def Roomy (f : Forest) (stack : Stack) : Prop :=
  ∀ entry ∈ stack, entry.1.raw < f.size ∧
    ∃ owners, f.IsLineage entry.1 owners ∧ f.size < owners.length + entry.2

/-- A stack with the children of an entry in place of the entry is roomy again. -/
theorem Treelike.roomy_children (tree : f.Treelike) {room : Nat} {children : List NodeId}
    {rest : Stack} (hc : f.children? id = some children) (h : f.Roomy ((id, room + 1) :: rest)) :
    f.Roomy (withRoom room children ++ rest) := by
  intro entry hm
  rcases List.mem_append.1 hm with hm | hm
  · obtain ⟨child, hchild, rfl⟩ := List.mem_map.1 hm
    obtain ⟨-, owners, hlineage, hroom⟩ := h _ List.mem_cons_self
    have hparent : f.parent? child = some id := by
      refine (tree.linked id child).1 ?_
      rw [childList, hc]
      exact hchild
    obtain ⟨node, hnode, -⟩ := parent?_eq_some_iff.1 hparent
    refine ⟨lt_size_of_node? hnode, id :: owners, ⟨hparent, hlineage⟩, ?_⟩
    rw [List.length_cons]
    simp only at hroom
    omega
  · exact h entry (List.mem_cons_of_mem _ hm)

theorem Treelike.room_pos (tree : f.Treelike) {entry : NodeId × Nat} {rest : Stack}
    (h : f.Roomy (entry :: rest)) : 0 < entry.2 := by
  obtain ⟨hlt, owners, hlineage, hroom⟩ := h entry List.mem_cons_self
  have := tree.length_lineage_lt hlt hlineage
  omega

theorem Treelike.verifyFrom_eq_ok (tree : f.Treelike) {stack : Stack} (h : f.Roomy stack) :
    f.verifyFrom stack = .ok () := by
  induction stack using verifyFrom.induct f with
  | case1 => rw [verifyFrom]
  | case2 id rest => exact absurd (tree.room_pos h) (Nat.lt_irrefl 0)
  | case3 id room rest hnone =>
      obtain ⟨node, hnode⟩ := node?_isSome_iff.2 (h _ List.mem_cons_self).1
      rw [children?, hnode] at hnone
      cases hnone
  | case4 id room rest children hc failure hlinks =>
      have hok : f.checkOwnerLinks id children.reverse = .ok () := by
        refine checkOwnerLinks_eq_ok fun child hm => (tree.linked id child).1 ?_
        rw [childList, hc]
        exact List.mem_reverse.1 hm
      rw [hok] at hlinks
      cases hlinks
  | case5 id room rest children hc hlinks ih =>
      rw [verifyFrom]
      split
      · next hnone => rw [hc] at hnone; cases hnone
      · next children' hc' =>
          rw [hc] at hc'
          cases hc'
          rw [hlinks]
          exact ih (tree.roomy_children hc h)

/-- **The owner links of a forest of trees are in order.** -/
theorem Treelike.verify_eq (tree : f.Treelike) (hid : id.raw < f.size) : f.verify id = .ok () := by
  obtain ⟨node, hnode⟩ := node?_isSome_iff.2 hid
  obtain ⟨owners, hlineage⟩ := tree.exists_lineage id
  have hroomy : f.Roomy [(id, f.size + 1)] := by
    intro entry hm
    obtain rfl := List.mem_singleton.1 hm
    exact ⟨hid, owners, hlineage, by omega⟩
  rw [verify, require_eq_ok_iff.2 hnode]
  exact tree.verifyFrom_eq_ok hroomy

end Forest

end SyntaxForest
