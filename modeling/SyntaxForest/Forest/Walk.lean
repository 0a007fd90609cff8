/-
**Walking a forest.**

Upwards, a walk follows the owners of a node.  Downwards, it goes through a node and everything
under it in pre-order: a node before its children, the children in order.  The downward walks of
this module keep the nodes still to come on a stack of their own, so they need no more memory for
a deep tree than for a wide one.

In a forest that was built by the rules a walk ends.  Segments that run past the store when their
node is made may later make a node its own descendant; a walk that would not end for such a
forest is a fault.  A walk ends if and only if no path is longer than the number of nodes, so
each entry of the stack says how long the paths below it may still be.

Main definitions:

* `Forest.ancestors`, `Forest.enclosingFunction` — the owners of a node, and the nearest function
  among them;
* `Forest.descendants`, `Forest.search`, `Forest.searchTag` — a node and everything under it;
* `Forest.verify` — each child names the node that lists it as its owner.

Main results:

* `Forest.weight_children_lt` — a step of a walk makes its stack lighter;
* `Forest.descendants_of_unknown` — there is nothing under a number without a node.
-/

import SyntaxForest.Forest.Basic

set_option relaxedAutoImplicit false
set_option autoImplicit false

namespace SyntaxForest

namespace Forest

/-! ### Upwards -/

/-- The owners of a node, nearest first, following at most `fuel` links. -/
def ancestorsF (f : Forest) : (fuel : Nat) → NodeId → Except Fault (List NodeId)
  | 0, _ => .error .endless
  | fuel + 1, id =>
      match f.node? id with
      | none => .error (.unallocated id)
      | some node =>
          match node.parent with
          | none => .ok []
          | some owner =>
              match ancestorsF f fuel owner with
              | .error fault => .error fault
              | .ok owners => .ok (owner :: owners)

/-- **The owners of a node, nearest first.** -/
def ancestors (f : Forest) (id : NodeId) : Except Fault (List NodeId) :=
  f.ancestorsF (f.size + 1) id

/-- The nearest function among the owners of a node, following at most `fuel` links. -/
def enclosingFunctionF (f : Forest) : (fuel : Nat) → NodeId → Except Fault (Option NodeId)
  | 0, _ => .error .endless
  | fuel + 1, id =>
      match f.node? id with
      | none => .error (.unallocated id)
      | some node =>
          match node.parent with
          | none => .ok none
          | some owner =>
              match f.tag? owner with
              | none => .error (.unallocated owner)
              | some tag =>
                  if tag.isFunction then .ok (some owner) else enclosingFunctionF f fuel owner

/-- **The nearest function that owns a node.** -/
def enclosingFunction (f : Forest) (id : NodeId) : Except Fault (Option NodeId) :=
  f.enclosingFunctionF (f.size + 1) id

/-! ### The stack of a downward walk -/

/-- Nodes still to come, each with the length that the paths from it may have. -/
abbrev Stack := List (NodeId × Nat)

/-- More than the number of children of any node. -/
def breadth (f : Forest) : Nat := f.lists.size + 4

/-- The weight of a stack: the number of nodes of full trees of the given depths. -/
def weight (f : Forest) : Stack → Nat
  | [] => 0
  | (_, room) :: rest => Nat.pow f.breadth room + weight f rest

/-- Nodes with the same room below each. -/
def withRoom (room : Nat) (ids : List NodeId) : Stack := ids.map fun id => (id, room)

theorem weight_append (f : Forest) (a b : Stack) :
    f.weight (a ++ b) = f.weight a + f.weight b := by
  induction a with
  | nil => simp [weight]
  | cons entry a ih => simp [weight, ih, Nat.add_assoc]

theorem weight_withRoom (f : Forest) (room : Nat) (ids : List NodeId) :
    f.weight (withRoom room ids) = ids.length * Nat.pow f.breadth room := by
  induction ids with
  | nil => simp [withRoom, weight]
  | cons id ids ih =>
      have : withRoom room (id :: ids) = (id, room) :: withRoom room ids := rfl
      rw [this, weight, ih, List.length_cons, Nat.add_mul, Nat.one_mul, Nat.add_comm]

/-- Taking a node off the stack and putting its children on makes the stack lighter. -/
theorem weight_children_lt (f : Forest) {id : NodeId} {room : Nat} {children : List NodeId}
    {rest : Stack} (h : f.children? id = some children) :
    f.weight (withRoom room children ++ rest) < f.weight ((id, room + 1) :: rest) := by
  have few : children.length < f.breadth := by
    obtain ⟨node, _, rfl⟩ := Option.map_eq_some_iff.1 h
    have := node.shape.length_children_le f.lists
    simp only [breadth, childrenOf]; omega
  have positive : 0 < Nat.pow f.breadth room := Nat.pow_pos (by simp [breadth])
  have above : Nat.pow f.breadth (room + 1) = f.breadth * Nat.pow f.breadth room := Nat.pow_succ'
  rw [weight_append, weight_withRoom, weight, above]
  exact Nat.add_lt_add_right (Nat.mul_lt_mul_of_pos_right few positive) _

/-! ### Downwards -/

/-- The nodes of a stack and everything under them, after those already found. -/
def descendantsFrom (f : Forest) (found : Array NodeId) : Stack → Except Fault (Array NodeId)
  | [] => .ok found
  | (_, 0) :: _ => .error .endless
  | (id, room + 1) :: rest =>
      match _h : f.children? id with
      | none => .error (.unallocated id)
      | some children => descendantsFrom f (found.push id) (withRoom room children ++ rest)
termination_by stack => f.weight stack
decreasing_by exact f.weight_children_lt _h

/-- **A node and everything under it, in pre-order**; nothing for a number without a node. -/
def descendants (f : Forest) (root : NodeId) : Except Fault (List NodeId) :=
  if f.contains root then (f.descendantsFrom #[] [(root, f.size + 1)]).map (·.toList)
  else .ok []

/-- What a test accepts of a node and everything under it. -/
def search (f : Forest) (root : NodeId) (test : NodeId → Bool) : Except Fault (List NodeId) :=
  (f.descendants root).map (·.filter test)

def searchTag (f : Forest) (root : NodeId) (tag : Tag) : Except Fault (List NodeId) :=
  f.search root fun id => f.tag? id = some tag

/-- The integer literals of at least a value among a node and everything under it, or all. -/
def searchIntegers (f : Forest) (root : NodeId) (least : Option Int64) :
    Except Fault (List NodeId) :=
  f.search root fun id =>
    match (f.literal? id).bind Literal.integer?, least with
    | none, _ => false
    | some _, none => true
    | some value, some least => least ≤ value

/-! ### Owners -/

/-- Each of the listed children names `owner` as its owner. -/
def checkOwnerLinks (f : Forest) (owner : NodeId) : List NodeId → Except Failure Unit
  | [] => .ok ()
  | child :: rest =>
      match f.node? child with
      | none => .error (.fault (.unallocated child))
      | some node =>
          if node.parent = some owner then checkOwnerLinks f owner rest
          else .error (.refused (.brokenOwnerLink child owner (NodeId.ofOption node.parent)))

/-- Each child of a node of a stack, and of a node under one, names its owner.  The children of a
node are looked at from the last to the first. -/
def verifyFrom (f : Forest) : Stack → Except Failure Unit
  | [] => .ok ()
  | (_, 0) :: _ => .error (.fault .endless)
  | (id, room + 1) :: rest =>
      match _h : f.children? id with
      | none => .error (.fault (.unallocated id))
      | some children =>
          match f.checkOwnerLinks id children.reverse with
          | .error failure => .error failure
          | .ok () => verifyFrom f (withRoom room children ++ rest)
termination_by stack => f.weight stack
decreasing_by exact f.weight_children_lt _h

/-- **Each child of a node, and of a node under it, names the node that lists it as its owner.** -/
def verify (f : Forest) (root : NodeId) : Except Failure Unit :=
  match f.require root with
  | .error refusal => .error (.refused refusal)
  | .ok _ => f.verifyFrom [(root, f.size + 1)]

theorem descendants_of_unknown {f : Forest} {root : NodeId} (h : ¬ f.contains root) :
    f.descendants root = .ok [] := by
  rw [descendants, if_neg h]

end Forest

end SyntaxForest
