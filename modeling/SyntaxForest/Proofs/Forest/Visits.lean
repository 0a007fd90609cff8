/-
**Visits.**

A visitor that goes into every node sees the nodes of the recursive walk, one after the other, and
is told how far each of them is from the start.  So its visit is a fold over the walk.

Main definitions:

* `Forest.depth` — the number of owners above a node;
* `Forest.hook?` — the category of a node that has a hook;
* `Forest.dispatch` — the visitor that comes to a node by the hook of its category and goes on;
* `Hook.covers` — the sorts of a category.

Main results:

* `Forest.Treelike.visit_eq_foldlM` — **a visit that goes into every node is a fold over the walk**;
* `Forest.Treelike.visit_dispatch`, `Forest.Treelike.hooks_eq` — what a visit by hooks
  comes to;
* `Tag.hook?_eq_some_iff` — the categories do not overlap.
-/

import SyntaxForest.Forest.Visit
import SyntaxForest.Proofs.Forest.Preorder

set_option relaxedAutoImplicit false
set_option autoImplicit false

namespace SyntaxForest

/-! ### Folds -/

section Folds

variable {m : Type → Type} [Monad m] {α β σ : Type}

private theorem foldlM_congr_mem {step step' : σ → α → m σ} {as : List α} {state : σ}
    (h : ∀ a ∈ as, ∀ state, step state a = step' state a) :
    as.foldlM step state = as.foldlM step' state := by
  induction as generalizing state with
  | nil => rfl
  | cons a as ih =>
      rw [List.foldlM_cons, List.foldlM_cons, h a List.mem_cons_self]
      exact bind_congr fun next => ih fun b hb => h b (List.mem_cons_of_mem _ hb)

/-- A fold whose steps are folds is one fold over all of their entries. -/
private theorem foldlM_flatMap [LawfulMonad m] {outer : σ → α → m σ} {inner : σ → β → m σ}
    {under : α → List β} {as : List α} {state : σ}
    (h : ∀ a ∈ as, ∀ state, outer state a = (under a).foldlM inner state) :
    as.foldlM outer state = (as.flatMap under).foldlM inner state := by
  induction as generalizing state with
  | nil => rfl
  | cons a as ih =>
      rw [List.foldlM_cons, List.flatMap_cons, List.foldlM_append, h a List.mem_cons_self]
      exact bind_congr fun next => ih fun b hb => h b (List.mem_cons_of_mem _ hb)

end Folds

namespace Forest

variable {f : Forest} {id root owner child n : NodeId} {owners : List NodeId}

/-! ### How far down a node is -/

/-- The number of owners above a node. -/
def depth (f : Forest) (id : NodeId) : Nat :=
  match f.ancestors id with
  | .ok owners => owners.length
  | .error _ => 0

theorem Treelike.depth_eq (tree : f.Treelike) (known : id.raw < f.size)
    (h : f.IsLineage id owners) : f.depth id = owners.length := by
  rw [depth, tree.ancestors_eq known h]

/-- A child is one further down than its owner. -/
theorem Treelike.depth_child (tree : f.Treelike) (parent : f.parent? child = some owner) :
    f.depth child = f.depth owner + 1 := by
  obtain ⟨node, hnode, -⟩ := parent?_eq_some_iff.1 parent
  obtain ⟨owners, howners⟩ := tree.exists_lineage owner
  have lineage : f.IsLineage child (owner :: owners) := ⟨parent, howners⟩
  rw [tree.depth_eq (tree.lt_size_of_parent? parent) howners,
    tree.depth_eq (lt_size_of_node? hnode) lineage, List.length_cons]

theorem Treelike.depth_le_of_under (tree : f.Treelike) (h : f.Under n root) :
    f.depth root ≤ f.depth n := by
  induction h with
  | refl => exact Nat.le_refl _
  | tail _ parent ih =>
      rw [tree.depth_child parent] at ih
      exact Nat.le_of_succ_le ih

/-! ### Visitors that go into every node -/

section Into

variable {σ : Type} {enter : Nat → NodeId → σ → Except Failure (Move σ)}
  {step : Nat → NodeId → σ → Except Failure σ} {fuel depth : Nat} {state : σ}

/-- Started at some depth, a visitor is told the depths that go on from there. -/
theorem Treelike.visitF_eq_foldlM (tree : f.Treelike)
    (into : ∀ depth id state, id.raw < f.size →
      enter depth id state = (step depth id state).map Move.into)
    (h : f.Suffices fuel id) : f.visitF enter fuel depth id state
      = (f.walkF fuel id).foldlM (fun state n => step (depth + (f.depth n - f.depth id)) n state)
          state := by
  induction fuel generalizing depth id state with
  | zero =>
      obtain ⟨levels, hlevels⟩ := tree.exists_level h
      cases hlevels
  | succ fuel ih =>
      obtain ⟨node, hnode⟩ := node?_isSome_iff.2 h.1
      have hchildren := children?_of_node? hnode
      rw [visitF, into _ _ _ h.1, walkF, List.foldlM_cons, Nat.sub_self, Nat.add_zero]
      cases step depth id state with
      | error failure => rfl
      | ok next =>
          simp only [Except.map, hchildren]
          refine foldlM_flatMap fun child hc state => ?_
          rw [ih (tree.suffices_child h hc)]
          refine foldlM_congr_mem fun n hn state => ?_
          -- what is under a child is further down than the node itself
          have hchild := tree.depth_child ((tree.linked id child).1 hc)
          have hle := tree.depth_le_of_under (tree.under_of_mem_walkF hn)
          congr 1
          omega

/-- Levels beyond those that suffice do not matter to a visitor that goes into every node. -/
theorem Treelike.visitF_congr (tree : f.Treelike) {fuel' : Nat}
    (into : ∀ depth id state, id.raw < f.size →
      enter depth id state = (step depth id state).map Move.into)
    (h : f.Suffices fuel id) (h' : f.Suffices fuel' id) :
    f.visitF enter fuel depth id state = f.visitF enter fuel' depth id state := by
  rw [tree.visitF_eq_foldlM into h, tree.visitF_eq_foldlM into h', tree.walkF_congr h h']

/-- **A visit that goes into every node is a fold over the walk.**  The visitor is told how far a
node is from the start. -/
theorem Treelike.visit_eq_foldlM (tree : f.Treelike)
    (step : Nat → NodeId → σ → Except Failure σ)
    (into : ∀ depth id state, id.raw < f.size →
      enter depth id state = (step depth id state).map Move.into)
    (known : root.raw < f.size) : f.visit enter root state
      = (f.walk root).foldlM (fun state n => step (f.depth n - f.depth root) n state) state := by
  rw [visit, tree.visitF_eq_foldlM into (tree.suffices_succ_size known)]
  simp only [Nat.zero_add]
  rfl

/-- A visitor that never fails. -/
theorem Treelike.visit_eq_foldl (tree : f.Treelike) (next : NodeId → σ → σ)
    (into : ∀ depth id state, id.raw < f.size → enter depth id state = .ok (.into (next id state)))
    (known : root.raw < f.size) (state : σ) : f.visit enter root state
      = .ok ((f.walk root).foldl (fun state n => next n state) state) := by
  rw [tree.visit_eq_foldlM (fun _ id state => .ok (next id state)) into known]
  exact List.foldlM_pure

end Into

/-! ### Hooks -/

/-- The category of a node, if it has a hook. -/
def hook? (f : Forest) (id : NodeId) : Option Hook := (f.tag? id).bind Tag.hook?

theorem hookOf_eq (known : id.raw < f.size) : f.hookOf id = .ok (f.hook? id) := by
  obtain ⟨node, hnode⟩ := node?_isSome_iff.2 known
  simp only [hookOf, hook?, tag?, hnode, Option.map_some, Option.bind_some]

/-- The visitor that comes to a node by the hook of its category, or by none, does something, and
goes on into the node. -/
def dispatch {σ : Type} (f : Forest) (act : Option Hook → NodeId → σ → σ) (_ : Nat) (id : NodeId)
    (state : σ) : Except Failure (Move σ) :=
  (f.hookOf id).map fun hook => .into (act hook id state)

/-- **A visitor comes once to each node of the walk**, in its order, by the hook of the node. -/
theorem Treelike.visit_dispatch {σ : Type} (tree : f.Treelike) (known : root.raw < f.size)
    (act : Option Hook → NodeId → σ → σ) (state : σ) : f.visit (f.dispatch act) root state
      = .ok ((f.walk root).foldl (fun state n => act (f.hook? n) n state) state) := by
  refine tree.visit_eq_foldl (fun n state => act (f.hook? n) n state) ?_ known state
  intro depth id state hid
  rw [dispatch, hookOf_eq hid]
  rfl

/-- Adds a node to the list if it comes by a hook. -/
def addHook (hook : Option Hook) (id : NodeId) (found : Array (Hook × NodeId)) :
    Array (Hook × NodeId) :=
  match hook with
  | none => found
  | some hook => found.push (hook, id)

theorem noteHook_eq_dispatch (f : Forest) : f.noteHook = f.dispatch addHook := by
  funext depth id found
  unfold noteHook dispatch
  cases f.hookOf id with
  | error failure => rfl
  | ok hook => cases hook <;> rfl

theorem toList_foldl_addHook (ids : List NodeId) (found : Array (Hook × NodeId)) :
    (ids.foldl (fun found n => addHook (f.hook? n) n found) found).toList
      = found.toList ++ ids.filterMap fun n => (f.hook? n).map (·, n) := by
  induction ids generalizing found with
  | nil => simp
  | cons n rest ih =>
      rw [List.foldl_cons, ih, List.filterMap_cons]
      cases f.hook? n <;> simp [addHook]

theorem Treelike.hooks_eq (tree : f.Treelike) (known : root.raw < f.size) :
    f.hooks root = .ok ((f.walk root).filterMap fun n => (f.hook? n).map (·, n)) := by
  rw [hooks, noteHook_eq_dispatch, tree.visit_dispatch known, Except.map, toList_foldl_addHook]
  rfl

end Forest

/-- The sorts of a category. -/
def Hook.covers : Hook → Tag → Bool
  | .directive => Tag.isDirective
  | .function => Tag.isFunction
  | .arm => Tag.isArm

/-- **The categories do not overlap:** a sort has the hook of each category that it is in. -/
theorem Tag.hook?_eq_some_iff (tag : Tag) (hook : Hook) :
    tag.hook? = some hook ↔ hook.covers tag = true := by
  cases tag <;> cases hook <;> decide

end SyntaxForest
