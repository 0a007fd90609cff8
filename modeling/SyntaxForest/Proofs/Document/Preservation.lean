/-
**Grouping preserves the program.**

Grouping the declarations of a document puts whole trees under new nodes and rewrites both records
of the edges.  What later passes read off the document must not suffer from it: no node may be lost
or met twice on a walk, the function around a node must be found through the groups, and every error
must still be told, though perhaps at another place in the list.

Main results:

* `Forest.Regrouped.diagnostics_eq`, `Forest.Regrouped.diagnostics_of_le` — what is told of a node
  is the same, and nothing is told of a group;
* `Forest.Treelike.regroupDocument_regrouped` — what is answered are the groups that were put
  between a document and its directives;
* `Document.preserved_of_groupOverloads` — **grouping preserves the program.**
-/

import SyntaxForest.Proofs.Forest.Regrouped
import SyntaxForest.Proofs.Report.Collected

set_option relaxedAutoImplicit false
set_option autoImplicit false

namespace SyntaxForest

namespace Forest

variable {f g : Forest} {id root : NodeId} {groups : List NodeId}

/-! ### Diagnostics -/

namespace Regrouped

/-- What is told of a node does not depend on its owner or on the directives of a document. -/
theorem diagnostics_eq (regrouped : f.Regrouped root g) (known : id.raw < f.size) :
    g.diagnostics id = f.diagnostics id := by
  obtain ⟨node, hnode⟩ := node?_isSome_iff.2 known
  obtain ⟨parent, shape, hlater, htag, -⟩ := regrouped.node hnode
  have hsame : Diagnostic.ofNodeError { node with parent := parent, shape := shape }
      = Diagnostic.ofNodeError node := by
    funext error
    simp only [Diagnostic.ofNodeError, Node.isDerived, htag]
    rfl
  simp only [diagnostics, hlater, hnode, Node.diagnostics, hsame]

/-- Nothing is told of a group. -/
theorem diagnostics_of_le (regrouped : f.Regrouped root g) (hnew : f.size ≤ id.raw) :
    g.diagnostics id = [] := by
  unfold diagnostics
  cases hnode : g.node? id with
  | none => rfl
  | some node =>
      obtain ⟨-, herrors, -⟩ := regrouped.group hnode hnew
      simp only [Node.diagnostics, herrors, List.map_nil]

/-- The tree tells what it told, perhaps in another order. -/
theorem flatMap_walk_perm (regrouped : f.Regrouped root g) (tree : f.Treelike)
    (later : g.Treelike) :
    ((g.walk root).flatMap g.diagnostics).Perm ((f.walk root).flatMap f.diagnostics) := by
  -- the groups say nothing, so they may be left out
  have hfilter : ∀ listed : List NodeId, listed.flatMap g.diagnostics
      = (listed.filter (·.raw < f.size)).flatMap f.diagnostics := by
    intro listed
    induction listed with
    | nil => rfl
    | cons id rest ih =>
        rw [List.flatMap_cons, ih]
        by_cases hold : id.raw < f.size
        · rw [List.filter_cons_of_pos (by simpa using hold), List.flatMap_cons,
            regrouped.diagnostics_eq hold]
        · rw [List.filter_cons_of_neg (by simpa using hold),
            regrouped.diagnostics_of_le (Nat.not_lt.1 hold), List.nil_append]
  rw [hfilter]
  exact (regrouped.walk_perm tree later).flatMap_right _

end Regrouped

/-! ### Documents -/

/-- Regrouping a document puts groups between it and its directives, and answers these. -/
theorem Treelike.regroupDocument_regrouped (tree : f.Treelike)
    (run : Forest.regroupDocument root f = .ok groups g) :
    f.Regrouped root g ∧ ∀ id : NodeId, id.raw < g.size → (id ∈ groups ↔ f.size ≤ id.raw) := by
  obtain ⟨former, document, ⟨declared, hdeclared, hregroup⟩ | ⟨rfl, rfl⟩⟩ :=
    tree.regroupDocument_ok run
  · obtain ⟨regrouped, rfl⟩ := tree.regrouped document hdeclared hregroup
    refine ⟨regrouped, fun id hlt => ?_⟩
    have hsize := regrouped.size
    rw [List.mem_map]
    constructor
    · rintro ⟨place, hplace, rfl⟩
      exact (List.mem_range'_1.1 hplace).1
    · intro hle
      exact ⟨id.raw, List.mem_range'_1.2 ⟨hle, by omega⟩, rfl⟩
  · refine ⟨tree.regrouped_self document, fun id hlt => ?_⟩
    exact ⟨fun h => (nomatch h), fun h => absurd hlt (Nat.not_lt.2 h)⟩

end Forest

namespace Document

open Forest

/-- **Grouping preserves the program.**  Let the forest of a document have a history, and let
grouping its declarations answer some groups.  Nothing but the forest of the document has changed.
Without the groups the nodes under the root are those that were under it, each once.  Of a node that
existed nothing has changed but perhaps its owner, and of the root its contents; all others have the
children that they had, and around each is the function that was around it.  What is collected is
the same up to order: the errors of the parser and those outside the tree come in the order in which
they came, and those in the tree are told once each. -/
theorem preserved_of_groupOverloads {d e : Document} {groups : List NodeId}
    (grown : d.forest.Grown) (run : groupOverloads d = .ok groups e) :
    e = { d with forest := e.forest }
      ∧ (∃ before later, d.forest.descendants d.root = .ok before
        ∧ e.forest.descendants e.root = .ok later
        ∧ (later.filter (· ∉ groups)).Perm before)
      ∧ (∀ id node, d.forest.node? id = some node →
        (∃ parent shape, e.forest.node? id = some { node with parent := parent, shape := shape }
          ∧ (id ≠ d.root → shape = node.shape ∧ e.forest.children? id = d.forest.children? id))
        ∧ e.forest.enclosingFunction id = d.forest.enclosingFunction id)
      ∧ ∃ inside inside' outside,
        d.collect = .ok (d.parseErrors.map Diagnostic.ofParseError ++ inside ++ outside)
        ∧ e.collect = .ok (d.parseErrors.map Diagnostic.ofParseError ++ inside' ++ outside)
        ∧ inside'.Perm inside
        ∧ ∀ before, d.forest.descendants d.root = .ok before →
          outside = (d.forest.ids.filter (· ∉ before)).flatMap d.forest.diagnostics := by
  have tree := grown.treelike
  rw [tree.groupOverloads_eq] at run
  cases hr : regroupDocument d.root d.forest with
  | error failure g =>
      rw [hr] at run
      cases run
  | ok answered g =>
      rw [hr] at run
      cases run
      have later := tree.regroupDocument hr
      obtain ⟨regrouped, hgroups⟩ := tree.regroupDocument_regrouped hr
      have hroot := regrouped.lt_size
      have hroot' := Nat.lt_of_lt_of_le hroot regrouped.size
      refine ⟨rfl, ⟨d.forest.walk d.root, g.walk d.root, tree.descendants_eq hroot,
        later.descendants_eq hroot', ?_⟩, fun id node hnode => ⟨?_, ?_⟩, ?_⟩
      · -- the groups are the new nodes, so without them the old ones are left
        have hfilter : (g.walk d.root).filter (· ∉ groups)
            = (g.walk d.root).filter (·.raw < d.forest.size) := by
          refine List.filter_congr fun id hid => ?_
          simp only [hgroups id (later.lt_size_of_mem_walk hroot' hid), Nat.not_le]
        rw [hfilter]
        exact regrouped.walk_perm tree later
      · obtain ⟨parent, shape, hlater, -, hshape⟩ := regrouped.node hnode
        refine ⟨parent, shape, hlater, fun hne => ⟨hshape hne, ?_⟩⟩
        have hchildren := regrouped.childList (lt_size_of_node? hnode) hne
        rw [childList_of_node? hlater, childList_of_node? hnode] at hchildren
        simp only [children?, hlater, hnode, Option.map_some, hchildren]
      · exact regrouped.enclosingFunction_eq tree later (lt_size_of_node? hnode)
      · refine ⟨_, _, _, tree.collect_eq hroot, ?_, regrouped.flatMap_walk_perm tree later,
          fun before hbefore => ?_⟩
        · -- what is outside the tree stays there and has the errors that it had
          have houtside : (d.forest.ids.filter (· ∉ d.forest.walk d.root)).flatMap g.diagnostics
              = (d.forest.ids.filter (· ∉ d.forest.walk d.root)).flatMap d.forest.diagnostics := by
            refine List.flatMap_congr fun id hid => ?_
            exact regrouped.diagnostics_eq (mem_ids_iff.1 (List.mem_filter.1 hid).1)
          have hcollect := later.collect_eq (d := { d with forest := g }) hroot'
          simp only [regrouped.outside_eq tree later, houtside] at hcollect
          exact hcollect
        · rw [tree.descendants_eq hroot] at hbefore
          cases hbefore
          rfl

/-- The declarations of one name are grouped, the tree has the nodes that it had and a group, and
the two errors in the forest are told as before. -/
theorem preserved_withErrors :
    withErrors.forest.Grown ∧ ∃ e, groupOverloads withErrors = .ok [⟨10⟩] e
      ∧ (∃ before later, withErrors.forest.descendants ⟨8⟩ = .ok before
        ∧ e.forest.descendants ⟨8⟩ = .ok later ∧ (later.filter (· ∉ [⟨10⟩])).Perm before)
      ∧ e.forest.enclosingFunction ⟨0⟩ = .ok (some ⟨1⟩) := by
  have grown : withErrors.forest.Grown := ⟨errorsInAndOut, by decide, by rw [withErrors]⟩
  have answer : answerOf? (groupOverloads withErrors) = some [⟨10⟩] := by decide +kernel
  obtain ⟨e, run⟩ := answerOf?_eq_some_iff.1 answer
  obtain ⟨heq, hwalks, hnodes, -⟩ := preserved_of_groupOverloads grown run
  have hroot : e.root = ⟨8⟩ := by
    rw [heq]
    rfl
  rw [hroot] at hwalks
  have known : (⟨0⟩ : NodeId).raw < withErrors.forest.size := by decide +kernel
  obtain ⟨node, hnode⟩ := node?_isSome_iff.2 known
  refine ⟨grown, e, run, hwalks, (hnodes ⟨0⟩ node hnode).2.trans ?_⟩
  decide +kernel

end Document

end SyntaxForest
