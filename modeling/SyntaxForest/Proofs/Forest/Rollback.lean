/-
**Dropping what was made since a mark.**

A forest grows when nodes are made over nodes without an owner and sequences are kept.  In a
grown forest the nodes that were there before are what they were, except that some of them now have
an owner among the new ones.  Dropping the new nodes takes those owners away again, so the forest is
the one before it grew.  That asks for no trees, only that an owner lists the nodes that name it.

Main definitions:

* `Forest.Grows` — a forest with nodes and list entries more;
* `Node.ownedBelow` — a node without an owner that stands too late.

Main results:

* `Forest.exists_node?_rollback` — what is left after the later nodes of any forest are dropped;
* `Forest.OwnersList.node?_rollback` — what is left if owners list the nodes that name them;
* `Forest.Grows.rollback_eq` — **dropping everything since a mark brings back the forest at the
  mark.**
-/

import SyntaxForest.Proofs.Forest.Tree

set_option relaxedAutoImplicit false
set_option autoImplicit false

namespace SyntaxForest

/-- A node that keeps its owner only if that stands before a place. -/
def Node.ownedBelow (place : Nat) (node : Node) : Node :=
  { node with parent := node.parent.filter (·.raw < place) }

/-- A node that keeps its owner only if that stands outside a range of places. -/
def Node.ownedOutside (start stop : Nat) (node : Node) : Node :=
  { node with parent := node.parent.filter fun owner => owner.raw < start ∨ stop ≤ owner.raw }

namespace Node

variable {node : Node} {start stop : Nat}

theorem ownedOutside_self (start : Nat) (node : Node) : node.ownedOutside start start = node := by
  have hall : node.parent.filter (fun owner => owner.raw < start ∨ start ≤ owner.raw)
      = node.parent := by
    cases node.parent with
    | none => rfl
    | some owner => exact Option.filter_some_pos (decide_eq_true (Nat.lt_or_ge _ _))
  rw [ownedOutside, hall]

/-- One place more in the range is nothing to a node with another owner. -/
theorem ownedOutside_succ (hne : node.parent ≠ some ⟨stop⟩) :
    node.ownedOutside start (stop + 1) = node.ownedOutside start stop := by
  rw [ownedOutside, ownedOutside]
  cases hparent : node.parent with
  | none => rfl
  | some owner =>
      have hother : owner.raw ≠ stop := fun heq => hne (by rw [hparent, ← heq])
      have hiff : (owner.raw < start ∨ stop + 1 ≤ owner.raw)
          ↔ (owner.raw < start ∨ stop ≤ owner.raw) := by omega
      simp only [Option.filter_some, hiff]

theorem ownedOutside_last (hparent : node.parent = some ⟨stop⟩) (hle : start ≤ stop) :
    node.ownedOutside start (stop + 1) = { node with parent := none } := by
  have hinside : ¬ (stop < start ∨ stop + 1 ≤ stop) := by omega
  have hnone : node.parent.filter (fun owner => owner.raw < start ∨ stop + 1 ≤ owner.raw)
      = none := by
    rw [hparent]
    exact Option.filter_some_neg (decide_eq_false hinside)
  rw [ownedOutside, hnone]

end Node

namespace Forest

variable {f g h : Forest} {id owner child : NodeId} {node : Node} {shape : Shape} {span : Span}

/-! ### Releasing the children of the last nodes -/

/-- Every owner from a place on lists the nodes that name it. -/
def ListsOwned (lists : Array NodeId) (start : Nat) (nodes : Array Node) : Prop :=
  ∀ {i node owner}, nodes[i]? = some node → node.parent = some owner → start ≤ owner.raw →
    ∃ above, nodes[owner.raw]? = some above ∧ (⟨i⟩ : NodeId) ∈ above.shape.children lists

/-- Releasing children takes owners away and changes no shape. -/
theorem ListsOwned.release {lists : Array NodeId} {start : Nat} {nodes : Array Node}
    (listed : ListsOwned lists start nodes) (owner : NodeId) (children : List NodeId) :
    ListsOwned lists start (release owner nodes children) := by
  intro i node above hnode hparent hstart
  rw [getElem?_release] at hnode
  obtain ⟨old, hold, rfl⟩ := Option.map_eq_some_iff.1 hnode
  have hformer : old.parent = some above := by
    unfold released at hparent
    split at hparent
    · cases hparent
    · exact hparent
  obtain ⟨o, ho, hmem⟩ := listed hold hformer hstart
  refine ⟨released owner children ⟨above.raw⟩ o, by rw [getElem?_release, ho, Option.map_some], ?_⟩
  rw [released_shape]
  exact hmem

/-- The last nodes have given up their children: nobody is owned by them. -/
theorem getElem?_releaseLast {lists : Array NodeId} {start extra : Nat} {nodes : Array Node}
    (listed : ListsOwned lists start nodes) (i : Nat) :
    (releaseLast lists start extra nodes)[i]?
      = nodes[i]?.map (Node.ownedOutside start (start + extra)) := by
  induction extra generalizing nodes with
  | zero =>
      rw [releaseLast, Nat.add_zero]
      cases nodes[i]? with
      | none => rfl
      | some node => rw [Option.map_some, Node.ownedOutside_self]
  | succ extra ih =>
      rw [releaseLast, ← Nat.add_assoc]
      split
      · next hnone =>
          -- there is no such node, so nobody is owned by it
          rw [ih listed]
          cases hi : nodes[i]? with
          | none => rfl
          | some node =>
              have hother : node.parent ≠ some ⟨start + extra⟩ := fun hparent => by
                obtain ⟨above, habove, -⟩ := listed hi hparent (Nat.le_add_right _ _)
                rw [hnone] at habove
                cases habove
              rw [Option.map_some, Option.map_some, Node.ownedOutside_succ hother]
      · next last hlast =>
          -- its children are released, and they are all that it owns
          rw [ih (listed.release _ _), getElem?_release]
          cases hi : nodes[i]? with
          | none => rfl
          | some node =>
              rw [Option.map_some, Option.map_some, Option.map_some]
              by_cases hparent : node.parent = some ⟨start + extra⟩
              · obtain ⟨above, habove, hmem⟩ := listed hi hparent (Nat.le_add_right _ _)
                rw [hlast] at habove
                cases habove
                rw [released, if_pos ⟨hmem, hparent⟩,
                  Node.ownedOutside_last hparent (Nat.le_add_right _ _)]
                rfl
              · rw [released, if_neg fun h => hparent h.2, Node.ownedOutside_succ hparent]

@[simp] theorem size_releaseLast (lists : Array NodeId) (start extra : Nat)
    (nodes : Array Node) : (releaseLast lists start extra nodes).size = nodes.size := by
  induction extra generalizing nodes with
  | zero => rfl
  | succ extra ih =>
      rw [releaseLast]
      split
      · exact ih nodes
      · rw [ih, size_release]

/-- Whatever the last nodes list, a node only loses an owner among them. -/
theorem exists_getElem?_releaseLast (lists : Array NodeId) (start extra : Nat)
    {nodes : Array Node} {i : Nat} (h : nodes[i]? = some node) :
    ∃ parent, (releaseLast lists start extra nodes)[i]? = some { node with parent := parent }
      ∧ (parent = node.parent
        ∨ parent = none ∧ ∃ owner, node.parent = some owner ∧ start ≤ owner.raw) := by
  induction extra generalizing nodes node with
  | zero => exact ⟨_, h, Or.inl rfl⟩
  | succ extra ih =>
      rw [releaseLast]
      split
      · exact ih h
      · next last _ =>
          have hreleased : (release ⟨start + extra⟩ nodes (last.shape.children lists))[i]?
              = some (released ⟨start + extra⟩ (last.shape.children lists) ⟨i⟩ node) := by
            rw [getElem?_release, h, Option.map_some]
          obtain ⟨parent, hparent, hcases⟩ := ih hreleased
          unfold released at hparent hcases
          split at hparent
          · next hgiven =>
              rw [if_pos hgiven] at hcases
              refine ⟨parent, hparent, Or.inr ⟨?_, _, hgiven.2, Nat.le_add_right _ _⟩⟩
              rcases hcases with heq | ⟨hnone, -⟩
              · exact heq
              · exact hnone
          · next hkept =>
              rw [if_neg hkept] at hcases
              exact ⟨parent, hparent, hcases⟩

/-- **Whatever the forest, a node before the mark only loses an owner from after it.** -/
theorem exists_node?_rollback {m : Mark} (hid : id.raw < m.nodes) (h : g.node? id = some node) :
    ∃ parent, (g.rollback m).node? id = some { node with parent := parent }
      ∧ (parent = node.parent
        ∨ parent = none ∧ ∃ owner, node.parent = some owner ∧ m.nodes ≤ owner.raw) := by
  have hlt : id.raw < min m.nodes g.nodes.size - 0 := Nat.lt_min.2 ⟨hid, lt_size_of_node? h⟩
  obtain ⟨parent, hparent, hcases⟩ :=
    exists_getElem?_releaseLast g.lists m.nodes (g.nodes.size - m.nodes) h
  refine ⟨parent, ?_, hcases⟩
  change ((releaseLast g.lists m.nodes (g.nodes.size - m.nodes) g.nodes).take m.nodes)[id.raw]? = _
  rw [Array.take_eq_extract, Array.getElem?_extract, size_releaseLast, if_pos hlt, Nat.zero_add,
    hparent]

theorem size_rollback (g : Forest) (m : Mark) : (g.rollback m).size = min m.nodes g.size := by
  change ((releaseLast _ _ _ _).take m.nodes).size = _
  rw [Array.take_eq_extract, Array.size_extract, size_releaseLast, Nat.sub_zero]
  rfl

/-- A node that is left was there before. -/
theorem exists_of_node?_rollback {m : Mark} {last : Node}
    (h : (g.rollback m).node? id = some last) :
    ∃ node parent, g.node? id = some node ∧ last = { node with parent := parent }
      ∧ (parent = node.parent ∨ parent = none) := by
  have hlt := lt_size_of_node? h
  rw [size_rollback] at hlt
  obtain ⟨node, hnode⟩ := node?_isSome_iff.2 (Nat.lt_of_lt_of_le hlt (Nat.min_le_right _ _))
  obtain ⟨parent, hparent, hcases⟩ :=
    exists_node?_rollback (Nat.lt_of_lt_of_le hlt (Nat.min_le_left _ _)) hnode
  exact ⟨node, parent, hnode, Option.some.inj (h.symm.trans hparent), hcases.imp_right And.left⟩

/-- **What is left when the later nodes are dropped,** if owners list the nodes that name them. -/
theorem OwnersList.node?_rollback (owners : g.OwnersList) {m : Mark} (hm : m.nodes ≤ g.size)
    (hid : id.raw < m.nodes) :
    (g.rollback m).node? id = (g.node? id).map (Node.ownedBelow m.nodes) := by
  have listed : ListsOwned g.lists m.nodes g.nodes := by
    intro i node owner hnode hparent _
    exact mem_childList_iff.1 (owners.mem (parent?_eq_some_iff.2 ⟨node, hnode, hparent⟩))
  change ((releaseLast g.lists m.nodes (g.nodes.size - m.nodes) g.nodes).take m.nodes)[id.raw]? = _
  have hlt : id.raw < min m.nodes g.nodes.size - 0 := Nat.lt_min.2 ⟨hid, Nat.lt_of_lt_of_le hid hm⟩
  rw [Array.take_eq_extract, Array.getElem?_extract, size_releaseLast, if_pos hlt, Nat.zero_add,
    getElem?_releaseLast listed]
  change (g.node? id).map _ = _
  cases hn : g.node? id with
  | none => rfl
  | some node =>
      rw [Option.map_some, Option.map_some, Node.ownedOutside, Node.ownedBelow]
      cases hp : node.parent with
      | none => rfl
      | some owner =>
          have hlt : owner.raw < g.nodes.size :=
            owners.lt_size_of_parent? (parent?_eq_some_iff.2 ⟨node, hn, hp⟩)
          have hiff : (owner.raw < m.nodes ∨ m.nodes + (g.nodes.size - m.nodes) ≤ owner.raw)
              ↔ owner.raw < m.nodes := by
            have hm : m.nodes ≤ g.nodes.size := hm
            omega
          simp only [Option.filter_some, hiff]

/-! ### Growing -/

/-- A forest with nodes and list entries more: the former nodes are the same, except that one
without an owner may now have one among the new nodes. -/
structure Grows (f g : Forest) : Prop where
  lists : ∃ more : List NodeId, g.lists = f.lists ++ more
  size : f.size ≤ g.size
  /-- The former nodes are the same except for new owners. -/
  node : ∀ {id node}, f.node? id = some node →
    ∃ parent, g.node? id = some { node with parent := parent }
      ∧ (parent = node.parent
        ∨ node.parent = none ∧ ∃ owner, parent = some owner ∧ f.size ≤ owner.raw)

namespace Grows

theorem refl (f : Forest) : f.Grows f :=
  ⟨⟨[], by simp⟩, Nat.le_refl _, fun h => ⟨_, h, Or.inl rfl⟩⟩

theorem trans (first : f.Grows g) (second : g.Grows h) : f.Grows h where
  lists := by
    obtain ⟨more, hmore⟩ := first.lists
    obtain ⟨more', hmore'⟩ := second.lists
    refine ⟨more ++ more', ?_⟩
    rw [hmore', hmore, grown_grown]
  size := Nat.le_trans first.size second.size
  node := by
    intro id node hnode
    obtain ⟨parent, hparent, hfirst⟩ := first.node hnode
    obtain ⟨parent', hparent', hsecond⟩ := second.node hparent
    refine ⟨parent', hparent', ?_⟩
    rcases hsecond with heq | ⟨hnone, owner, howner, hle⟩
    · rw [heq]
      exact hfirst
    · rcases hfirst with heq | ⟨_, owner', howner', _⟩
      · exact Or.inr ⟨heq ▸ hnone, owner, howner, Nat.le_trans first.size hle⟩
      · rw [howner'] at hnone
        cases hnone

theorem keep (f : Forest) (ids : List NodeId) : f.Grows (f.keep ids) :=
  ⟨⟨ids, rfl⟩, Nat.le_refl _, fun h => ⟨_, h, Or.inl rfl⟩⟩

/-- A new node over nodes without an owner. -/
theorem add (owners : f.OwnersList) (admits : f.Admits shape span) (donor : Option NodeId) :
    f.Grows (f.add shape span donor) where
  lists := ⟨[], by simp⟩
  size := by
    rw [size_add]
    exact Nat.le_succ _
  node := by
    intro id node hnode
    rw [node?_add_of_lt (lt_size_of_node? hnode), hnode, Option.map_some]
    by_cases hm : id ∈ shape.children f.lists
    · rw [adopted_of_mem hm]
      have hnone := owners.parent?_of_free (admits.free id hm)
      rw [parent?_of_node? hnode] at hnone
      exact ⟨_, rfl, Or.inr ⟨hnone, _, rfl, Nat.le_refl _⟩⟩
    · rw [adopted_of_notMem hm]
      exact ⟨_, rfl, Or.inl rfl⟩

/-- **Dropping everything since a mark brings back the forest at the mark.** -/
theorem rollback_eq (grows : f.Grows g) (before : f.OwnersList) (after : g.OwnersList) :
    g.rollback f.mark = f := by
  obtain ⟨more, hmore⟩ := grows.lists
  refine ext_node? (fun id => ?_) ?_
  · by_cases hid : id.raw < f.size
    · obtain ⟨node, hnode⟩ := node?_isSome_iff.2 hid
      obtain ⟨parent, hparent, howner⟩ := grows.node hnode
      rw [after.node?_rollback grows.size hid, hparent, hnode, Option.map_some]
      have hformer : parent.filter (·.raw < f.mark.nodes) = node.parent := by
        rcases howner with rfl | ⟨hnone, owner, rfl, hle⟩
        · cases hp : node.parent with
          | none => rfl
          | some owner =>
              have hlt := before.lt_size_of_parent? (parent?_eq_some_iff.2 ⟨node, hnode, hp⟩)
              exact Option.filter_some_pos (decide_eq_true hlt)
        · rw [hnone]
          exact Option.filter_some_neg (decide_eq_false (Nat.not_lt.2 hle))
      rw [Node.ownedBelow, hformer]
    · have hle : f.size ≤ id.raw := Nat.not_lt.1 hid
      rw [node?_eq_none_of_le hle]
      refine node?_eq_none_of_le ?_
      rw [size_rollback]
      exact Nat.le_trans (Nat.min_le_left _ _) hle
  · change g.lists.take f.lists.size = f.lists
    rw [hmore, ← Array.toList_inj]
    simp

end Grows

end Forest

end SyntaxForest
