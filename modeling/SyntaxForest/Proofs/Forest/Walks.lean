/-
**All walks see one tree.**

A forest is walked downwards by a stack and by recursion, and upwards along the owners.  In a forest
with a history the walks agree: downwards both list the same nodes in the same order, a node is
listed exactly when the walk upwards from it comes to the start, and the nearest function above a
node is the lowest one whose walk lists it.

Main definitions:

* `Forest.isFunction` — a node that is a function, plain or seen through a closure.

Main results:

* `Forest.Treelike.enclosingFunction_eq` — the nearest function is the first among the owners;
* `Forest.Treelike.enclosingFunction_eq_some_iff` — **it is the lowest function around a node**;
* `Forest.walks_of_history` — **in a forest with a history all walks see the same tree.**
-/

import SyntaxForest.Proofs.Forest.History
import SyntaxForest.Proofs.Forest.Visits

set_option relaxedAutoImplicit false
set_option autoImplicit false

namespace SyntaxForest

namespace Forest

variable {f : Forest} {id root n e : NodeId} {owners : List NodeId} {fuel : Nat}

/-! ### The function around a node -/

def isFunction (f : Forest) (id : NodeId) : Bool := (f.tag? id).any Tag.isFunction

theorem lt_size_of_isFunction (h : f.isFunction id = true) : id.raw < f.size := by
  obtain ⟨tag, htag, -⟩ := Option.any_eq_true _ _ |>.1 h
  obtain ⟨node, hnode, -⟩ := Option.map_eq_some_iff.1 htag
  exact lt_size_of_node? hnode

theorem enclosingFunctionF_eq (tree : f.Treelike) (known : id.raw < f.size)
    (h : f.IsLineage id owners) (hfuel : owners.length < fuel) :
    f.enclosingFunctionF fuel id = .ok (owners.find? f.isFunction) := by
  induction owners generalizing id fuel with
  | nil =>
      obtain ⟨fuel, rfl⟩ : ∃ k, fuel = k + 1 := ⟨fuel - 1, by omega⟩
      obtain ⟨node, hnode⟩ := node?_isSome_iff.2 known
      have hparent : node.parent = none := by rw [← parent?_of_node? hnode]; exact h
      simp only [enclosingFunctionF, hnode, hparent, List.find?_nil]
  | cons owner rest ih =>
      rw [List.length_cons] at hfuel
      obtain ⟨fuel, rfl⟩ : ∃ k, fuel = k + 1 := ⟨fuel - 1, by omega⟩
      obtain ⟨node, hnode⟩ := node?_isSome_iff.2 known
      have hparent : node.parent = some owner := by rw [← parent?_of_node? hnode]; exact h.1
      have howner := tree.lt_size_of_parent? h.1
      obtain ⟨above, habove⟩ := node?_isSome_iff.2 howner
      have htag : f.tag? owner = some above.shape.tag := by rw [tag?, habove, Option.map_some]
      have hrest := ih howner h.2 (Nat.lt_of_succ_lt_succ hfuel)
      simp only [enclosingFunctionF, hnode, hparent, htag, List.find?_cons, isFunction,
        Option.any_some, hrest]
      cases above.shape.tag.isFunction <;> rfl

/-- **The nearest function is the first among the owners.** -/
theorem Treelike.enclosingFunction_eq (tree : f.Treelike) (known : id.raw < f.size)
    (h : f.IsLineage id owners) : f.enclosingFunction id = .ok (owners.find? f.isFunction) :=
  enclosingFunctionF_eq tree known h (Nat.lt_succ_of_lt (tree.length_lineage_lt known h))

/-- The nearest function in a lineage is under every function in it. -/
theorem under_of_find?_eq_some (h : f.IsLineage id owners)
    (first : owners.find? f.isFunction = some e) {other : NodeId} (ho : other ∈ owners)
    (function : f.isFunction other = true) : f.Under e other := by
  induction owners generalizing id with
  | nil => cases ho
  | cons owner rest ih =>
      rw [List.find?_cons] at first
      cases howner : f.isFunction owner with
      | true =>
          rw [howner] at first
          obtain rfl : owner = e := Option.some.inj first
          -- everything in the lineage is at the nearest owner or above it
          rcases List.mem_cons.1 ho with rfl | ho
          · exact Relation.ReflTransGen.refl
          · exact h.2.under ho
      | false =>
          rw [howner] at first
          rcases List.mem_cons.1 ho with rfl | ho
          · rw [howner] at function
            cases function
          · exact ih h.2 first ho

/-- **The nearest function is the lowest one around a node**: a function other than the node, whose
walk lists the node, and that is listed by the walk of every other such function. -/
theorem Treelike.enclosingFunction_eq_some_iff (tree : f.Treelike) (known : n.raw < f.size) :
    f.enclosingFunction n = .ok (some e) ↔
      f.isFunction e = true ∧ e ≠ n ∧ n ∈ f.walk e
        ∧ ∀ other, f.isFunction other = true → other ≠ n → n ∈ f.walk other → e ∈ f.walk other := by
  obtain ⟨owners, howners⟩ := tree.exists_lineage n
  rw [tree.enclosingFunction_eq known howners, Except.ok.injEq]
  -- the functions other than the node whose walks list it are those among its owners
  have around : ∀ {other}, f.isFunction other = true →
      (other ∈ owners ↔ other ≠ n ∧ n ∈ f.walk other) := by
    intro other hother
    rw [tree.mem_walk_iff (lt_size_of_isFunction hother), tree.under_iff_lineage]
    constructor
    · intro hm
      refine ⟨?_, Or.inr ⟨owners, howners, hm⟩⟩
      rintro rfl
      exact (List.nodup_cons.1 (tree.nodup_lineage howners)).1 hm
    · rintro ⟨hne, rfl | ⟨others, hothers, hm⟩⟩
      · exact absurd rfl hne
      · exact hothers.unique howners ▸ hm
  constructor
  · intro first
    have hfun := List.find?_some first
    obtain ⟨hne, hmem⟩ := (around hfun).1 (List.mem_of_find?_eq_some first)
    refine ⟨hfun, hne, hmem, fun other hother hne' hmem' => ?_⟩
    rw [tree.mem_walk_iff (lt_size_of_isFunction hother)]
    exact under_of_find?_eq_some howners first ((around hother).2 ⟨hne', hmem'⟩) hother
  · rintro ⟨hfun, hne, hmem, lowest⟩
    have hm := (around hfun).2 ⟨hne, hmem⟩
    obtain ⟨first, hfirst⟩ := Option.isSome_iff_exists.1
      (List.find?_isSome.2 ⟨e, hm, hfun⟩)
    have hfirstFun := List.find?_some hfirst
    obtain ⟨hne', hmem'⟩ := (around hfirstFun).1 (List.mem_of_find?_eq_some hfirst)
    -- each of the two is under the other
    have hdown := under_of_find?_eq_some howners hfirst hm hfun
    have hup := (tree.mem_walk_iff (lt_size_of_isFunction hfirstFun)).1
      (lowest first hfirstFun hne' hmem')
    rw [hfirst, tree.under_antisymm hdown hup]

/-! ### All walks -/

theorem lt_size_of_ancestors (h : f.ancestors n = .ok owners) : n.raw < f.size := by
  rw [ancestors, ancestorsF] at h
  split at h
  · cases h
  · next node hnode => exact lt_size_of_node? hnode

/-- **In a forest with a history all walks see the same tree.**  The walk with a stack and the
recursive walk list the same nodes in the same order, each once, and they list a node exactly when
the walk upwards from it comes to their start.  Searches are filters of the walk.  A visitor comes
once to each node of the walk, in its order, by the hook of the one category that the node is in or
by none.  The function that encloses a node is the lowest function around it.  Nothing is under a
number without a node. -/
theorem walks_of_history (grown : f.Grown) :
    (∀ root, f.contains root →
      f.descendants root = .ok (f.walk root)
        ∧ f.walk root = root :: (f.childList root).flatMap f.walk
        ∧ (f.walk root).Nodup
        ∧ (∀ n, n ∈ f.walk root ↔ n = root ∨ ∃ owners, f.ancestors n = .ok owners ∧ root ∈ owners)
        ∧ (∀ tag, f.searchTag root tag = .ok ((f.walk root).filter fun n => f.tag? n = some tag))
        ∧ (∀ test, f.search root test = .ok ((f.walk root).filter test))
        ∧ (∀ (σ : Type) (act : Option Hook → NodeId → σ → σ) (state : σ),
            f.visit (f.dispatch act) root state
              = .ok ((f.walk root).foldl (fun state n => act (f.hook? n) n state) state))
        ∧ f.hooks root = .ok ((f.walk root).filterMap fun n => (f.hook? n).map (·, n))
        ∧ ∀ n ∈ f.walk root, ∃ tag, f.tag? n = some tag
          ∧ ∀ hook, f.hook? n = some hook ↔ hook.covers tag = true)
      ∧ (∀ n, f.contains n → ∃ found, f.enclosingFunction n = .ok found ∧ ∀ e, found = some e ↔
          f.isFunction e = true ∧ e ≠ n ∧ n ∈ f.walk e ∧
            ∀ other, f.isFunction other = true → other ≠ n → n ∈ f.walk other → e ∈ f.walk other)
      ∧ ∀ root, ¬ f.contains root → f.descendants root = .ok [] := by
  have tree := grown.treelike
  refine ⟨fun root hroot => ?_, fun n hn => ?_, fun root => descendants_of_unknown⟩
  · have known := contains_iff.1 hroot
    have hwalk := tree.descendants_eq known
    have hsearch : ∀ test, f.search root test = .ok ((f.walk root).filter test) := fun test => by
      rw [search, hwalk, Except.map]
    refine ⟨hwalk, tree.walk_eq known, tree.nodup_walk root, fun n => ?_, fun tag => hsearch _,
      hsearch, fun σ act state => tree.visit_dispatch known act state, tree.hooks_eq known,
      fun n hn => ?_⟩
    · -- the nodes of the walk are those under the root, and the way up from them passes it
      refine ⟨fun hn => ?_, fun h => ?_⟩
      · have hlt := tree.lt_size_of_mem_walk known hn
        rw [tree.mem_walk_iff known, tree.under_iff_lineage] at hn
        exact hn.imp_right fun ⟨owners, howners, hm⟩ =>
          ⟨owners, tree.ancestors_eq hlt howners, hm⟩
      · rw [tree.mem_walk_iff known, tree.under_iff_lineage]
        refine h.imp_right fun ⟨owners, howners, hm⟩ => ?_
        obtain ⟨lineage, hlineage⟩ := tree.exists_lineage n
        rw [tree.ancestors_eq (lt_size_of_ancestors howners) hlineage] at howners
        cases howners
        exact ⟨_, hlineage, hm⟩
    · obtain ⟨node, hnode⟩ := node?_isSome_iff.2 (tree.lt_size_of_mem_walk known hn)
      refine ⟨node.shape.tag, by rw [tag?, hnode, Option.map_some], fun hook => ?_⟩
      rw [hook?, tag?, hnode, Option.map_some, Option.bind_some]
      exact Tag.hook?_eq_some_iff _ hook
  · have known := contains_iff.1 hn
    obtain ⟨owners, howners⟩ := tree.exists_lineage n
    refine ⟨_, tree.enclosingFunction_eq known howners, fun e => ?_⟩
    rw [← tree.enclosingFunction_eq_some_iff known, tree.enclosingFunction_eq known howners,
      Except.ok.injEq]

/-- The document over a group that is younger than itself: the walk goes through the group, and
the functions are the two under it. -/
theorem walks_of_regrouped_declarations :
    (Change.runAll empty (twoDeclarations ++ [.regroup ⟨8⟩])).Grown
      ∧ (Change.runAll empty (twoDeclarations ++ [.regroup ⟨8⟩])).descendants ⟨8⟩
        = .ok [⟨8⟩, ⟨9⟩, ⟨2⟩, ⟨1⟩, ⟨0⟩, ⟨5⟩, ⟨4⟩, ⟨3⟩, ⟨7⟩, ⟨6⟩] := by
  have grown : (Change.runAll empty (twoDeclarations ++ [.regroup ⟨8⟩])).Grown :=
    ⟨_, by decide, rfl⟩
  refine ⟨grown, ((walks_of_history grown).1 ⟨8⟩ (by decide)).1.trans ?_⟩
  decide

end Forest

end SyntaxForest
