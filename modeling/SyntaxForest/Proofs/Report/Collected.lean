/-
**Collecting loses and repeats nothing.**

The diagnostics of a document are gathered on a visit of its tree, and the nodes that were not met
are swept up afterwards.  In a forest of trees the visit meets each node of the tree once, so the
two parts together are all nodes, each once, and each error of a node is told once.

Main definitions:

* `Document.Gathered.meet` — what has been gathered after one more node.

Main results:

* `Forest.errorCount_eq` — the errors are counted as they are told;
* `Forest.Treelike.perm_ids` — the nodes of a walk and the others are all nodes;
* `Forest.Treelike.collect_eq` — what is collected, part by part;
* `Document.collect_of_history` — **collecting tells every error once, and each with its place.**
-/

import SyntaxForest.Proofs.Forest.Walks
import SyntaxForest.Report.Collection

set_option relaxedAutoImplicit false
set_option autoImplicit false

namespace SyntaxForest

/-! ### Gathering -/

namespace Document

namespace Gathered

/-- What has been gathered after a node is met. -/
def meet (f : Forest) (id : NodeId) (g : Gathered) : Gathered :=
  ⟨g.found ++ f.diagnostics id, g.reached.setIfInBounds id.raw true⟩

variable {f : Forest} {id : NodeId} {ids : List NodeId} {g : Gathered}

theorem toList_found_meet (f : Forest) (ids : List NodeId) (g : Gathered) :
    (ids.foldl (fun g id => g.meet f id) g).found.toList
      = g.found.toList ++ ids.flatMap f.diagnostics := by
  induction ids generalizing g with
  | nil => simp
  | cons id rest ih =>
      rw [List.foldl_cons, ih, meet, List.flatMap_cons, Array.toList_appendList, List.append_assoc]

/-- The marks are on the nodes that were met. -/
theorem getD_reached_meet (h : id.raw < g.reached.size) :
    (ids.foldl (fun g id => g.meet f id) g).reached.getD id.raw false
      = (g.reached.getD id.raw false || decide (id ∈ ids)) := by
  induction ids generalizing g with
  | nil => simp
  | cons other rest ih =>
      have hsize : (g.meet f other).reached.size = g.reached.size := Array.size_setIfInBounds
      rw [List.foldl_cons, ih (by rw [hsize]; exact h)]
      by_cases heq : id = other
      · subst heq
        simp [meet, Array.getD, h]
      · have hraw : other.raw ≠ id.raw := fun hraw => heq (NodeId.eq_of_raw hraw.symm)
        simp [meet, Array.getD, h, heq, hraw]

end Gathered

theorem gather_eq (f : Forest) (depth : Nat) (id : NodeId) (g : Gathered) :
    gather f depth id g = .ok (.into (g.meet f id)) := rfl

end Document

/-! ### All nodes -/

namespace Forest

variable {f : Forest} {root : NodeId}

theorem mem_ids_iff {id : NodeId} : id ∈ f.ids ↔ id.raw < f.size := by
  constructor
  · intro h
    obtain ⟨place, hplace, rfl⟩ := List.mem_map.1 h
    exact List.mem_range.1 hplace
  · intro h
    exact List.mem_map.2 ⟨id.raw, List.mem_range.2 h, rfl⟩

theorem nodup_ids (f : Forest) : f.ids.Nodup :=
  List.nodup_range.map fun _ _ h => congrArg NodeId.raw h

/-- The nodes of a walk and the others are all nodes. -/
theorem Treelike.perm_ids (tree : f.Treelike) (known : root.raw < f.size) :
    (f.walk root ++ f.ids.filter (· ∉ f.walk root)).Perm f.ids := by
  have hmet : (f.walk root).Perm (f.ids.filter (· ∈ f.walk root)) := by
    refine (List.perm_ext_iff_of_nodup (tree.nodup_walk root) (f.nodup_ids.filter _)).2 fun id => ?_
    rw [List.mem_filter, mem_ids_iff, decide_eq_true_eq]
    exact ⟨fun h => ⟨tree.lt_size_of_mem_walk known h, h⟩, fun h => h.2⟩
  have hall := List.filter_append_perm (fun id => decide (id ∈ f.walk root)) f.ids
  simp only [← decide_not] at hall
  exact (hmet.append_right _).trans hall

/-- The diagnostics of all nodes are those of the nodes in their order. -/
theorem flatMap_diagnostics_ids (f : Forest) :
    f.ids.flatMap f.diagnostics = f.nodes.toList.flatMap Node.diagnostics := by
  have hnodes : f.ids.map f.node? = f.nodes.toList.map some := by
    refine List.ext_getElem? fun place => ?_
    rw [ids, List.map_map, List.getElem?_map, List.getElem?_map]
    by_cases h : place < f.size
    · have hplace : place < f.nodes.toList.length := h
      rw [List.getElem?_range h, List.getElem?_eq_getElem hplace]
      simp [node?]
    · have hplace : f.nodes.toList.length ≤ place := Nat.not_lt.1 h
      rw [List.getElem?_eq_none hplace, List.getElem?_eq_none (by simpa using Nat.not_lt.1 h)]
      rfl
  have hsplit : f.ids.flatMap f.diagnostics
      = (f.ids.map f.node?).flatMap fun node => node.elim [] Node.diagnostics := by
    rw [List.flatMap_map]
    refine List.flatMap_congr fun id _ => ?_
    unfold diagnostics
    cases f.node? id <;> rfl
  rw [hsplit, hnodes, List.flatMap_map]
  rfl

/-- The errors are counted as they are told. -/
theorem errorCount_eq (f : Forest) : f.errorCount = (f.ids.flatMap f.diagnostics).length := by
  have counted : ∀ (nodes : List Node) (count : Nat),
      nodes.foldl (fun count node => count + node.errors.length) count
        = count + (nodes.flatMap Node.diagnostics).length := by
    intro nodes
    induction nodes with
    | nil => simp
    | cons node rest ih =>
        intro count
        rw [List.foldl_cons, ih, List.flatMap_cons, List.length_append, Node.diagnostics,
          List.length_map]
        omega
  rw [flatMap_diagnostics_ids, errorCount, ← Array.foldl_toList, counted, Nat.zero_add]

/-! ### Collecting -/

/-- **What is collected:** the errors of the parser, then those in the nodes of the tree in the
order of the walk, then those in the other nodes in the order of their numbers. -/
theorem Treelike.collect_eq {d : Document} (tree : d.forest.Treelike)
    (known : d.root.raw < d.forest.size) : d.collect
      = .ok (d.parseErrors.map Diagnostic.ofParseError
        ++ (d.forest.walk d.root).flatMap d.forest.diagnostics
        ++ (d.forest.ids.filter (· ∉ d.forest.walk d.root)).flatMap d.forest.diagnostics) := by
  have hvisit := tree.visit_eq_foldl _
    (fun depth id g _ => Document.gather_eq d.forest depth id g) known
    ⟨#[], Array.replicate d.forest.size false⟩
  have hothers : d.forest.ids.filter (fun id => !((d.forest.walk d.root).foldl
        (fun g id => g.meet d.forest id) (⟨#[], Array.replicate d.forest.size false⟩ :
          Document.Gathered)).reached.getD id.raw false)
      = d.forest.ids.filter (· ∉ d.forest.walk d.root) := by
    refine List.filter_congr fun id hid => ?_
    have hlt := mem_ids_iff.1 hid
    rw [Document.Gathered.getD_reached_meet (by simpa using hlt)]
    simp [Array.getD, hlt]
  unfold Document.collect
  simp only [hvisit]
  rw [Document.unreached, hothers, Document.Gathered.toList_found_meet, List.nil_append]

theorem Treelike.length_diagnostics (tree : f.Treelike) (known : root.raw < f.size) :
    ((f.walk root).flatMap f.diagnostics).length
      + ((f.ids.filter (· ∉ f.walk root)).flatMap f.diagnostics).length = f.errorCount := by
  rw [errorCount_eq, ← ((tree.perm_ids known).flatMap_right _).length_eq, List.flatMap_append,
    List.length_append]

end Forest

namespace Document

open Forest

/-- **Collecting loses and repeats nothing.**  Of a document whose forest has a history and whose
root exists, the diagnostics are those of the errors of the parser, in order, then those of the
errors in the nodes under the root, in the order of the walk, and then those of the errors in all
other nodes, in the order of their numbers.  There are as many as errors, and none exactly when no
error was found.  The diagnostic of an error in a node has the place of the node and its sort as
its primary label, the note of the error, and a note that the node is derived exactly when it
is. -/
theorem collect_of_history {d : Document} (grown : d.forest.Grown)
    (known : d.forest.contains d.root) :
    ∃ nodes ds, d.forest.descendants d.root = .ok nodes ∧ d.collect = .ok ds
      ∧ ds = d.parseErrors.map Diagnostic.ofParseError ++ nodes.flatMap d.forest.diagnostics
        ++ (d.forest.ids.filter (· ∉ nodes)).flatMap d.forest.diagnostics
      ∧ ds.length = d.parseErrors.length + d.forest.errorCount
      ∧ (ds = [] ↔ d.hasErrors = false)
      ∧ (∀ error : ParseError, Diagnostic.ofParseError error =
        { code := .parser, severity := .error, message := error.message,
          labels := [⟨error.span, "syntax error here", true⟩], notes := [], suggestions := [] })
      ∧ ∀ id node, d.forest.node? id = some node →
        d.forest.diagnostics id = (d.forest.errors id).map fun error =>
          { code := .semantic, severity := .error, message := error.message,
            labels := [⟨node.span, node.shape.tag.name, true⟩],
            notes := error.note.toList ++ if (d.forest.donor? id).isSome then
              ["in compiler-generated code derived from this location"] else [],
            suggestions := [] } := by
  have tree := grown.treelike
  have hroot := contains_iff.1 known
  have hlength := tree.length_diagnostics hroot
  refine ⟨d.forest.walk d.root, _, tree.descendants_eq hroot, tree.collect_eq hroot, rfl, ?_, ?_,
    fun error => rfl, fun id node hnode => ?_⟩
  · rw [List.length_append, List.length_append, List.length_map]
    omega
  · rw [← List.length_eq_zero_iff, List.length_append, List.length_append, List.length_map,
      hasErrors, Bool.or_eq_false_iff, Bool.not_eq_false', List.isEmpty_iff_length_eq_zero,
      decide_eq_false_iff_not]
    omega
  · simp only [diagnostics, errors, donor?, hnode, Option.map_some, Option.getD_some,
      Option.bind_some]
    rfl

/-- Two declarations, a function seen through a closure that belongs to nobody, and an error in it
and in the declaration of a variable. -/
def errorsInAndOut : List Change :=
  twoDeclarations ++
    [ .edit (.specialize ⟨1⟩ ⟨0⟩), .edit (.addError ⟨9⟩ ⟨"a", none⟩),
      .edit (.addError ⟨7⟩ ⟨"b", some "c"⟩) ]

/-- The document over them, with an error of the parser. -/
def withErrors : Document :=
  { (default : Document) with
    forest := Change.runAll empty errorsInAndOut, root := ⟨8⟩, parseErrors := [⟨"d", ⟨0, 1⟩⟩] }

/-- The error of the parser is collected and so are the two in the forest. -/
theorem collect_withErrors :
    withErrors.forest.Grown ∧ withErrors.forest.contains withErrors.root
      ∧ ∃ ds, withErrors.collect = .ok ds ∧ ds.length = 3 := by
  have grown : withErrors.forest.Grown :=
    ⟨errorsInAndOut, by decide, by rw [withErrors]⟩
  have known : withErrors.forest.contains withErrors.root := by decide +kernel
  have count : withErrors.parseErrors.length + withErrors.forest.errorCount = 3 := by
    decide +kernel
  obtain ⟨nodes, ds, -, collected, -, hlength, -⟩ := collect_of_history grown known
  exact ⟨grown, known, ds, collected, hlength.trans count⟩

end Document

end SyntaxForest
