/-
**Matches and functions that last.**

While a forest is made, and only nodes are added and decorated, a match keeps its slot and a
function keeps its local variables.  A forest is steady as long as, besides, no new node is a match:
then the matches are those that there were.

Main definitions:

* `Forest.slot?` — the local variable of a match;
* `Forest.Lasts` — the nodes keep their contents and what is recorded of them as functions;
* `Forest.Steady` — the same, and no match is made.

Main results:

* `Forest.Lasts.locals`, `Forest.Lasts.slot?` — what lasts;
* `Forest.Steady.add`, `Forest.Steady.replace_new` — what may be done;
* `Forest.Steady.slot?_eq` — **the matches and their slots are those that there were.**
-/

import SyntaxForest.Proofs.Forest.Fitting

set_option relaxedAutoImplicit false
set_option autoImplicit false

namespace SyntaxForest

/-- The local variable in which a match keeps the value under scrutiny. -/
def Shape.slot? : Shape → Option LocalSlot
  | .matching _ _ slot => some slot
  | _ => none

theorem Shape.slot?_of_tag {shape : Shape} (h : shape.tag ≠ .matching) : shape.slot? = none := by
  cases shape with
  | matching => exact absurd rfl h
  | _ => rfl

namespace Forest

def slot? (f : Forest) (id : NodeId) : Option LocalSlot := (f.shape? id).bind Shape.slot?

variable {f g h : Forest} {id : NodeId} {node : Node} {slot : LocalSlot} {shape : Shape}

theorem slot?_of_node? (hnode : f.node? id = some node) : f.slot? id = node.shape.slot? := by
  rw [slot?, shape?_of_node? hnode, Option.bind_some]

theorem slot?_eq_some_iff :
    f.slot? id = some slot ↔ ∃ node, f.node? id = some node ∧ node.shape.slot? = some slot := by
  constructor
  · intro hslot
    obtain ⟨shape, hshape, hsame⟩ := Option.bind_eq_some_iff.1 hslot
    obtain ⟨node, hnode, rfl⟩ := shape?_eq_some_iff.1 hshape
    exact ⟨node, hnode, hsame⟩
  · rintro ⟨node, hnode, hslot⟩
    rw [slot?_of_node? hnode, hslot]

/-! ### Nodes that last -/

/-- The nodes keep their contents and what is recorded of them as functions. -/
structure Lasts (f g : Forest) : Prop where
  size : f.size ≤ g.size
  /-- Each node keeps its contents and what is recorded of it as a function. -/
  node : ∀ {id node}, f.node? id = some node →
    ∃ later, g.node? id = some later ∧ later.shape = node.shape ∧ later.info = node.info

/-- The nodes last, and no match is made. -/
structure Steady (f g : Forest) : Prop extends Lasts f g where
  new : ∀ {id node}, g.node? id = some node → f.size ≤ id.raw → node.shape.tag ≠ .matching

namespace Lasts

theorem refl (f : Forest) : f.Lasts f := ⟨Nat.le_refl _, fun h => ⟨_, h, rfl, rfl⟩⟩

theorem trans (first : f.Lasts g) (second : g.Lasts h) : f.Lasts h where
  size := Nat.le_trans first.size second.size
  node hnode := by
    obtain ⟨later, hlater, hshape, hinfo⟩ := first.node hnode
    obtain ⟨last, hlast, hshape', hinfo'⟩ := second.node hlater
    exact ⟨last, hlast, hshape'.trans hshape, hinfo'.trans hinfo⟩

theorem keep (f : Forest) (ids : List NodeId) : f.Lasts (f.keep ids) :=
  ⟨Nat.le_refl _, fun h => ⟨_, h, rfl, rfl⟩⟩

theorem add (f : Forest) (shape : Shape) (span : Span) (donor : Option NodeId) :
    f.Lasts (f.add shape span donor) where
  size := by
    rw [size_add]
    exact Nat.le_succ _
  node {id node} hnode := by
    refine ⟨_, by rw [node?_add_of_lt (lt_size_of_node? hnode), hnode, Option.map_some], ?_⟩
    unfold adopted
    split <;> exact ⟨rfl, rfl⟩

theorem replace {old new : Node} (here : f.node? id = some old) (shape : new.shape = old.shape)
    (info : new.info = old.info) : f.Lasts (f.replace id new) where
  size := Nat.le_of_eq (size_replace f id new).symm
  node {other node} hnode := by
    by_cases heq : other = id
    · subst heq
      obtain rfl := Option.some.inj (here.symm.trans hnode)
      exact ⟨new, node?_replace_self here, shape, info⟩
    · exact ⟨node, by rw [node?_replace_of_ne heq, hnode], rfl, rfl⟩

theorem slot? (lasts : f.Lasts g) (hslot : f.slot? id = some slot) : g.slot? id = some slot := by
  obtain ⟨node, hnode, hsame⟩ := slot?_eq_some_iff.1 hslot
  obtain ⟨later, hlater, hshape, -⟩ := lasts.node hnode
  exact slot?_eq_some_iff.2 ⟨later, hlater, hshape ▸ hsame⟩

theorem locals (lasts : f.Lasts g) (known : id.raw < f.size) : g.locals id = f.locals id := by
  obtain ⟨node, hnode⟩ := node?_isSome_iff.2 known
  obtain ⟨later, hlater, -, hinfo⟩ := lasts.node hnode
  rw [locals_of_node? hlater, locals_of_node? hnode, Node.locals, hinfo, Node.locals]

theorem slot?_of_lt (lasts : f.Lasts g) (known : id.raw < f.size) : f.slot? id = g.slot? id := by
  obtain ⟨node, hnode⟩ := node?_isSome_iff.2 known
  obtain ⟨later, hlater, hshape, -⟩ := lasts.node hnode
  rw [slot?_of_node? hnode, slot?_of_node? hlater, hshape]

end Lasts

namespace Steady

theorem refl (f : Forest) : f.Steady f :=
  ⟨Lasts.refl f, fun h hle => absurd (lt_size_of_node? h) (Nat.not_lt.2 hle)⟩

theorem trans (first : f.Steady g) (second : g.Steady h) : f.Steady h where
  toLasts := first.toLasts.trans second.toLasts
  new {id last} hlast hle := by
    by_cases hlt : id.raw < g.size
    · obtain ⟨node, hnode⟩ := node?_isSome_iff.2 hlt
      obtain ⟨later, hlater, hshape, -⟩ := second.node hnode
      obtain rfl := Option.some.inj (hlater.symm.trans hlast)
      rw [hshape]
      exact first.new hnode hle
    · exact second.new hlast (Nat.not_lt.1 hlt)

theorem keep (f : Forest) (ids : List NodeId) : f.Steady (f.keep ids) :=
  ⟨Lasts.keep f ids, fun h hle => absurd (lt_size_of_node? h) (Nat.not_lt.2 hle)⟩

/-- A node more that is no match. -/
theorem add {span : Span} (donor : Option NodeId) (tag : shape.tag ≠ .matching)
    (admits : f.Admits shape span) : f.Steady (f.add shape span donor) where
  toLasts := Lasts.add f shape span donor
  new {id node} hnode hle := by
    have hlt := lt_size_of_node? hnode
    rw [size_add] at hlt
    obtain rfl : id = ⟨f.size⟩ := NodeId.eq_of_raw (by omega)
    rw [node?_add_self admits.notMem_children] at hnode
    cases hnode
    exact tag

theorem replace {old new : Node} (here : f.node? id = some old) (shape : new.shape = old.shape)
    (info : new.info = old.info) : f.Steady (f.replace id new) where
  toLasts := Lasts.replace here shape info
  new {other node} hnode hle := by
    have hlt := lt_size_of_node? hnode
    rw [size_replace] at hlt
    exact absurd hlt (Nat.not_lt.2 hle)

/-- A node that was made since may still be written to. -/
theorem replace_new {old new : Node} (steady : f.Steady g) (here : g.node? id = some old)
    (since : f.size ≤ id.raw) (shape : new.shape = old.shape) : f.Steady (g.replace id new) where
  size := by
    rw [size_replace]
    exact steady.size
  node {other node} hnode := by
    have hne : other ≠ id := by
      rintro rfl
      exact absurd (lt_size_of_node? hnode) (Nat.not_lt.2 since)
    rw [node?_replace_of_ne hne]
    exact steady.node hnode
  new {other node} hnode hle := by
    by_cases heq : other = id
    · subst heq
      rw [node?_replace_self here] at hnode
      cases hnode
      rw [shape]
      exact steady.new here hle
    · rw [node?_replace_of_ne heq] at hnode
      exact steady.new hnode hle

/-- A node that is a match after all was one before. -/
theorem slot?_eq (steady : f.Steady g) (id : NodeId) : g.slot? id = f.slot? id := by
  by_cases hlt : id.raw < f.size
  · exact (steady.slot?_of_lt hlt).symm
  · have hnone : f.slot? id = none := by
      rw [slot?, shape?, node?_eq_none_of_le (Nat.not_lt.1 hlt)]
      rfl
    rw [hnone]
    refine Option.eq_none_iff_forall_not_mem.2 fun slot hslot => ?_
    obtain ⟨node, hnode, hsame⟩ := slot?_eq_some_iff.1 hslot
    rw [Shape.slot?_of_tag (steady.new hnode (Nat.not_lt.1 hlt))] at hsame
    cases hsame

end Steady

end Forest

end SyntaxForest
