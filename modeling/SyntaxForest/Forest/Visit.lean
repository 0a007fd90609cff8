/-
**Visiting a tree.**

A visitor goes down a tree from a root.  At each node it changes its state, and it either goes
into the children of the node or passes over them; it may also fail, which ends the visit.  A
visit is the recursive reading of "a node before its children, the children in order".

Three categories of nodes have a hook of their own: directives, functions and arms.

Main definitions:

* `Move` — what a visitor does after it has seen a node;
* `Forest.visitF`, `Forest.visit` — a visit;
* `Hook`, `Tag.hook?` — the categories with a hook, and the category of a sort;
* `Forest.hooks` — every node with a hook, in the order of the visit;
* `Forest.outerFunctions` — the functions that are not inside others.
-/

import SyntaxForest.Forest.Basic

set_option relaxedAutoImplicit false
set_option autoImplicit false

namespace SyntaxForest

/-- What a visitor does after it has seen a node, and its state then. -/
inductive Move (σ : Type)
  /-- It goes into the children of the node. -/
  | into (state : σ)
  /-- It passes over them. -/
  | over (state : σ)

namespace Forest

/-- A visit of a node at some depth and of what is under it, at most `fuel` levels deep.  `enter`
is told the depth, the node and the state. -/
def visitF {σ : Type} (f : Forest) (enter : Nat → NodeId → σ → Except Failure (Move σ)) :
    (fuel depth : Nat) → NodeId → σ → Except Failure σ
  | 0, _, _, _ => .error (.fault .endless)
  | fuel + 1, depth, id, state =>
      match enter depth id state with
      | .error failure => .error failure
      | .ok (.over state) => .ok state
      | .ok (.into state) =>
          match f.children? id with
          | none => .error (.fault (.unallocated id))
          | some children =>
              children.foldlM (fun state child => visitF f enter fuel (depth + 1) child state)
                state

/-- **A visit of a node and of what is under it.**  No path of a tree has more nodes than the
forest, so a visit that gets deeper would not end. -/
def visit {σ : Type} (f : Forest) (enter : Nat → NodeId → σ → Except Failure (Move σ))
    (root : NodeId) (state : σ) : Except Failure σ :=
  f.visitF enter (f.size + 1) 0 root state

end Forest

/-! ### Hooks -/

/-- A category of nodes with a hook of its own. -/
inductive Hook
  | directive
  | function
  | arm
  deriving DecidableEq, Inhabited

/-- The category of a sort, if it has a hook. -/
def Tag.hook? (tag : Tag) : Option Hook :=
  if tag.isDirective then some .directive
  else if tag.isFunction then some .function
  else if tag.isArm then some .arm
  else none

namespace Forest

/-- The category of a node, which must exist. -/
def hookOf (f : Forest) (id : NodeId) : Except Failure (Option Hook) :=
  match f.tag? id with
  | some tag => .ok tag.hook?
  | none => .error (.fault (.unallocated id))

/-- Notes the hook of a node and goes on. -/
def noteHook (f : Forest) (_ : Nat) (id : NodeId) (found : Array (Hook × NodeId)) :
    Except Failure (Move (Array (Hook × NodeId))) :=
  match f.hookOf id with
  | .error failure => .error failure
  | .ok none => .ok (.into found)
  | .ok (some hook) => .ok (.into (found.push (hook, id)))

/-- **Every node with a hook,** from a root down, in the order of the visit. -/
def hooks (f : Forest) (root : NodeId) : Except Failure (List (Hook × NodeId)) :=
  (f.visit f.noteHook root #[]).map (·.toList)

/-- Notes a function and passes over what is in it. -/
def noteFunction (f : Forest) (_ : Nat) (id : NodeId) (found : Array NodeId) :
    Except Failure (Move (Array NodeId)) :=
  match f.hookOf id with
  | .error failure => .error failure
  | .ok (some .function) => .ok (.over (found.push id))
  | .ok _ => .ok (.into found)

/-- The functions under a root that are not inside others. -/
def outerFunctions (f : Forest) (root : NodeId) : Except Failure (List NodeId) :=
  (f.visit f.noteFunction root #[]).map (·.toList)

end Forest

end SyntaxForest
