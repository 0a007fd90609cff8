/-
**Histories of forests.**

A forest is made from the empty one by edits, by room for local variables, and by regrouping the
declarations of a document, in any order and with any node numbers, whether a change is refused or
not.  The one thing that its makers promise is that the segments of a new shape lie inside the
store at that moment.  Every forest with such a history is a forest of trees.

Main definitions:

* `Forest.Change`, `Forest.Change.after`, `Forest.Change.runAll` — changes, and doing them;
* `Forest.Change.StoredAlong` — the promise about the segments of new shapes;
* `Forest.Grown` — the forests with a history.

Main results:

* `Forest.Grown.after` — a history may go on;
* `Forest.Grown.treelike` — **a forest with a history is a forest of trees**;
* `Forest.edges_of_history` — the two records of the edges agree, no node is above itself, and
  the walks over the edges end and succeed;
* `Forest.unchanged_of_failed_regrouping` — **regrouping that fails changes nothing.**
-/

import SyntaxForest.Document.Basic
import SyntaxForest.Proofs.Forest.Ancestry
import SyntaxForest.Proofs.Forest.Regrouping

set_option relaxedAutoImplicit false
set_option autoImplicit false

namespace SyntaxForest

namespace Forest

inductive Change
  | edit (edit : Edit)
  | reserveLocals (function : NodeId) (count : Nat)
  | regroup (root : NodeId)
  deriving DecidableEq

namespace Change

def after (f : Forest) : Change → Forest
  | .edit e => e.after f
  | .reserveLocals function count =>
      stateOf (decorate function (Node.reserveLocals count function) f)
  | .regroup root => stateOf (regroupDocument root f)

def runAll (f : Forest) (changes : List Change) : Forest := changes.foldl after f

/-- The segments of the shape of a new node lie inside the store. -/
def Stored (f : Forest) : Change → Prop
  | .edit (.insert shape _) => shape.Stored f.lists
  | .edit (.insertDerived shape _) => shape.Stored f.lists
  | _ => True

instance (f : Forest) (change : Change) : Decidable (change.Stored f) := by
  unfold Stored
  split <;> infer_instance

/-- The segments of each new shape lie inside the store when its node is made. -/
def StoredAlong : Forest → List Change → Prop
  | _, [] => True
  | f, change :: rest => change.Stored f ∧ StoredAlong (change.after f) rest

instance decidableStoredAlong : ∀ (f : Forest) (changes : List Change),
    Decidable (StoredAlong f changes)
  | _, [] => inferInstanceAs (Decidable True)
  | f, change :: rest =>
      have := decidableStoredAlong (change.after f) rest
      inferInstanceAs (Decidable (_ ∧ _))

end Change

/-- A forest with a history. -/
def Grown (f : Forest) : Prop :=
  ∃ changes, Change.StoredAlong empty changes ∧ f = Change.runAll empty changes

variable {f g : Forest} {root : NodeId} {changes : List Change}

open Change

/-! ### Histories go on -/

theorem Change.runAll_append (f : Forest) (first second : List Change) :
    runAll f (first ++ second) = runAll (runAll f first) second :=
  List.foldl_append

theorem Change.StoredAlong.append {first second : List Change} (h : StoredAlong f first)
    (h' : StoredAlong (runAll f first) second) : StoredAlong f (first ++ second) := by
  induction first generalizing f with
  | nil => exact h'
  | cons change rest ih => exact ⟨h.1, ih h.2 h'⟩

theorem grown_empty : Grown empty := ⟨[], True.intro, rfl⟩

/-- A history may go on with any change that keeps the promise. -/
theorem Grown.after (grown : f.Grown) {change : Change} (stored : change.Stored f) :
    (change.after f).Grown := by
  obtain ⟨changes, along, rfl⟩ := grown
  refine ⟨changes ++ [change], along.append ⟨stored, True.intro⟩, ?_⟩
  rw [runAll_append]
  rfl

/-! ### Histories make trees -/

/-- An edit of a promised shape allows only stored shapes. -/
theorem Change.Stored.allowed {edit : Edit} (stored : (Change.edit edit).Stored f) :
    edit.Allowed storedShape f := by
  cases edit with
  | insert shape span => exact fun _ => stored
  | insertDerived shape donor => exact fun _ => stored
  | specialize base closure => exact fun _ s hs => (nomatch hs)
  | groupFunctions name members =>
      intro _ _ _ s hs
      obtain rfl := List.mem_singleton.1 hs
      exact Segment.inside_kept f.lists members
  | _ => exact True.intro

/-- A change keeps a forest of trees. -/
theorem Treelike.after (tree : f.Treelike) {change : Change} (stored : change.Stored f) :
    (change.after f).Treelike := by
  cases change with
  | edit edit => exact tree.acts (Edit.acts_after stored.allowed)
  | reserveLocals function count =>
      exact tree.acts (acts_decorate Node.reserveLocals_redecorated)
  | regroup root =>
      rw [Change.after]
      cases hr : Forest.regroupDocument root f with
      | ok groups g => exact tree.regroupDocument hr
      | error failure g =>
          obtain ⟨rfl, -⟩ := tree.regroupDocument_error hr
          exact tree

theorem Treelike.runAll (tree : f.Treelike) (along : StoredAlong f changes) :
    (Change.runAll f changes).Treelike := by
  induction changes generalizing f with
  | nil => exact tree
  | cons change rest ih => exact ih (tree.after along.1) along.2

/-- **A forest with a history is a forest of trees.** -/
theorem Grown.treelike (grown : f.Grown) : f.Treelike := by
  obtain ⟨changes, along, rfl⟩ := grown
  exact treelike_empty.runAll along

/-- **After any history the edges form trees.**  A node lists a child exactly when the child names
it as its owner; no child is listed twice, and all exist; no node is above itself, and the walk
upwards finds all owners; and the check of the owner links succeeds at every node. -/
theorem edges_of_history (grown : f.Grown) :
    (∀ owner child, child ∈ f.childList owner ↔ f.parent? child = some owner)
      ∧ (∀ owner, (f.childList owner).Nodup ∧ ∀ child ∈ f.childList owner, f.contains child)
      ∧ (WellFounded fun owner child => f.parent? child = some owner)
      ∧ (∀ id, f.contains id → ∃ owners, f.ancestors id = .ok owners ∧ f.IsLineage id owners)
      ∧ ∀ root, f.contains root → f.verify root = .ok () := by
  have tree := grown.treelike
  refine ⟨tree.linked, fun owner => ⟨tree.nodup owner, fun child hc => ?_⟩, tree.wellFounded,
    fun id hid => ?_, fun root hroot => tree.verify_eq (contains_iff.1 hroot)⟩
  · obtain ⟨node, hnode, -⟩ := tree.node?_of_mem hc
    exact contains_iff.2 (lt_size_of_node? hnode)
  · obtain ⟨owners, howners⟩ := tree.exists_lineage id
    exact ⟨owners, tree.ancestors_eq (contains_iff.1 hid) howners, howners⟩

/-- Two declarations of functions of one name, a declaration of a variable and the document over
the three; the sixth node is refused because its identifier has an owner. -/
def twoDeclarations : List Change :=
  [ .edit (.insert (.nameIdentifier ⟨1⟩) ⟨0, 1⟩),
    .edit (.insert (.function ⟨0⟩ NodeId.absent Segment.empty NodeId.absent) ⟨0, 1⟩),
    .edit (.insert (.funDirective ⟨1⟩ false) ⟨0, 1⟩),
    .edit (.insert (.nameIdentifier ⟨1⟩) ⟨1, 2⟩),
    .edit (.insert (.function ⟨3⟩ NodeId.absent Segment.empty NodeId.absent) ⟨1, 2⟩),
    .edit (.insert (.variableReference ⟨0⟩) ⟨1, 2⟩),
    .edit (.insert (.funDirective ⟨4⟩ true) ⟨1, 2⟩),
    .edit (.insert (.nameIdentifier ⟨2⟩) ⟨2, 3⟩),
    .edit (.insert (.varDirective ⟨6⟩ NodeId.absent NodeId.absent false) ⟨2, 3⟩),
    .edit (.storeList [⟨2⟩, ⟨5⟩, ⟨7⟩] "directives"),
    .edit (.insert (.document ⟨0, 3⟩) ⟨0, 3⟩) ]

/-- A document that owns a group younger than itself. -/
theorem edges_of_regrouped_declarations :
    (runAll empty (twoDeclarations ++ [.regroup ⟨8⟩])).Grown
      ∧ (runAll empty (twoDeclarations ++ [.regroup ⟨8⟩])).childList ⟨8⟩ = [⟨9⟩, ⟨7⟩]
      ∧ (runAll empty (twoDeclarations ++ [.regroup ⟨8⟩])).verify ⟨8⟩ = .ok () := by
  have grown : (runAll empty (twoDeclarations ++ [.regroup ⟨8⟩])).Grown := ⟨_, by decide, rfl⟩
  exact ⟨grown, by decide, (edges_of_history grown).2.2.2.2 ⟨8⟩ (by decide)⟩

/-! ### Regrouping that fails -/

/-- Regrouping a document regroups its forest. -/
theorem Treelike.groupOverloads_eq {d : Document} (tree : d.forest.Treelike) :
    Document.groupOverloads d = match Forest.regroupDocument d.root d.forest with
      | .ok groups forest => .ok groups { d with forest := forest }
      | .error failure forest => .error failure { d with forest := forest } := by
  unfold Document.groupOverloads
  cases hr : Forest.regroupDocument d.root d.forest with
  | ok groups g => rfl
  | error failure g =>
      obtain ⟨-, refusal, rfl⟩ := tree.regroupDocument_error hr
      rfl

/-- **Regrouping that fails changes nothing.**  Whatever the document and its root, and whatever
table the members of groups are drawn from, a failure is a refusal, and the document and the
forest are what they were. -/
theorem unchanged_of_failed_regrouping (grown : f.Grown) :
    (∀ (d e : Document) (failure : Failure), d.forest = f →
        Document.groupOverloads d = .error failure e →
        e = d ∧ ∃ refusal, failure = .refused refusal)
      ∧ ∀ (root : NodeId) (former : Segment) (members : Name → List NodeId) (g : Forest)
        (failure : Failure), f.directivesOf root = .ok former →
        regroupOrRestore root former members f = .error failure g →
        g = f ∧ ∃ refusal, failure = .refused refusal := by
  refine ⟨fun d e failure hd run => ?_, fun root former members g failure document run =>
    grown.treelike.regroupOrRestore_error document run⟩
  subst hd
  rw [grown.treelike.groupOverloads_eq] at run
  split at run
  · cases run
  · next failure forest hr =>
      obtain ⟨rfl, refusal, rfl⟩ := grown.treelike.regroupDocument_error hr
      cases run
      exact ⟨rfl, refusal, rfl⟩

/-- The declarations with a root that is no document cannot be regrouped, and with a table that
lists the declaration of a variable as a member the document has given up its directives when the
failure is found. -/
theorem unchanged_of_misfit_member :
    (∃ refusal, Document.groupOverloads
        { (default : Document) with forest := runAll empty twoDeclarations, root := ⟨7⟩ }
          = .error (.refused refusal)
            { (default : Document) with forest := runAll empty twoDeclarations, root := ⟨7⟩ })
      ∧ ∃ refusal, regroupOrRestore ⟨8⟩ ⟨0, 3⟩ (fun _ => [⟨2⟩, ⟨7⟩]) (runAll empty twoDeclarations)
          = .error (.refused refusal) (runAll empty twoDeclarations) := by
  have grown : (runAll empty twoDeclarations).Grown := ⟨twoDeclarations, by decide, rfl⟩
  constructor
  · obtain ⟨failure, e, failed⟩ : ∃ failure e, Document.groupOverloads
        { (default : Document) with forest := runAll empty twoDeclarations, root := ⟨7⟩ }
          = .error failure e := ⟨_, _, rfl⟩
    obtain ⟨rfl, refusal, rfl⟩ := (unchanged_of_failed_regrouping grown).1 _ e failure rfl failed
    exact ⟨refusal, failed⟩
  · obtain ⟨failure, g, failed⟩ : ∃ failure g,
        regroupOrRestore ⟨8⟩ ⟨0, 3⟩ (fun _ => [⟨2⟩, ⟨7⟩]) (runAll empty twoDeclarations)
          = .error failure g := ⟨_, _, rfl⟩
    obtain ⟨rfl, refusal, rfl⟩ :=
      (unchanged_of_failed_regrouping grown).2 ⟨8⟩ ⟨0, 3⟩ _ g failure rfl failed
    exact ⟨refusal, failed⟩

end Forest

end SyntaxForest
