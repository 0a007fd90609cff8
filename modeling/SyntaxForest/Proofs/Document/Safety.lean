/-
**What may break.**

Whatever node numbers, sequences, spans and texts a builder is given, each of its steps makes
something or is refused, and the same is true of everything that is asked of the document it hands
over, but for one question.  For operations that look before each step this is no news, so it is
said of those that work on tables without guards and count in words: there is something to break in
them, and nothing does, as long as the table of names has room.  A report asks for more, since the
last line of a long source may have no number: it is given on sources that are shorter than the
words are many.

The one question is that for the outline.  A builder sets no bound to the depth of a tree, but the
width of a line has one, and the outline of a tree with a node more than 32767 steps below its root
breaks off at the first such node, unless a binary expression without an operator comes before it.

Main definitions:

* `Step.Concludes` — an operation answers or is refused;
* `Document.Unguarded.groupOverloads` — grouping on tables without guards;
* `Document.Safe` — a document that answers, but for outlines that are too wide.

Main results:

* `Document.Unguarded.groupOverloads_agrees` — declarations are grouped alike;
* `Document.Built.safe` — **a document that was built answers**;
* `Builder.safe_of_run` — **a builder completes all its steps, and what it hands over is safe**;
* `Builder.outline_of_deepSteps` — and yet an outline of it may break off.
-/

import SyntaxForest.Proofs.Builder.Depths
import SyntaxForest.Proofs.Builder.Unguarded
import SyntaxForest.Proofs.Document.Built
import SyntaxForest.Proofs.Forest.RegroupUnguarded
import SyntaxForest.Proofs.Report.Collected
import SyntaxForest.Proofs.Report.Unguarded

set_option relaxedAutoImplicit false
set_option autoImplicit false

namespace SyntaxForest

namespace Step

variable {σ α : Type}

/-- An operation answers or is refused: it reads and writes inside of the tables, all its searches
end, and all its numbers fit into words. -/
def Concludes (result : EStateM.Result Stop σ α) : Prop :=
  (∃ answer state, result = .ok answer state)
    ∨ ∃ refusal state, result = .error (.refused refusal) state

/-- A step that can only be refused concludes. -/
theorem concludes_heed (step : EStateM Refusal σ α) (s : σ) :
    Concludes (heed Stop.refused step s) := by
  unfold heed
  cases step s with
  | ok answer t => exact Or.inl ⟨answer, t, rfl⟩
  | error refusal t => exact Or.inr ⟨refusal, t, rfl⟩

end Step

open Step

namespace Document

open Forest

variable {d : Document}

/-! ### Grouping -/

namespace Unguarded

/-- Groups the declarations by name. -/
def groupOverloads : EStateM Stop Document (List NodeId) := fun d =>
  match Forest.Unguarded.regroupDocument d.root d.forest with
  | .ok groups forest => .ok groups { d with forest := forest }
  | .error (.refused refusal) forest => .error (.refused refusal) { d with forest := forest }
  | .error stop _ => .error stop d

/-- **Declarations are grouped alike.** -/
theorem groupOverloads_agrees : Agrees Stop.ofFailure (fun d => d.forest.Ruled)
    Document.groupOverloads groupOverloads := by
  intro d ruled
  rw [groupOverloads, Forest.Unguarded.regroupDocument_agrees d.root d.forest ruled, heed, heed,
    Document.groupOverloads]
  rcases Forest.regroupDocument d.root d.forest with ⟨_, _⟩ | ⟨_ | _, _⟩ <;> rfl

end Unguarded

/-! ### Documents that answer -/

/-- A document that answers whatever is asked of it, or refuses to; only an outline breaks off,
where a line would be too wide. -/
structure Safe (d : Document) : Prop where
  groups : Concludes (Unguarded.groupOverloads d)
  found : ∀ tag, ∃ found, d.searchTag tag = .ok found
  verified : d.forest.verify d.root = .ok ()
  /-- Each node has a text but for a binary expression without an operator. -/
  texts : ∀ id refusal, d.text id = .error refusal →
    refusal = .unknownNode id ∨ refusal = .missingOperator id
  /-- Each number has an outline, or it is refused, or its first stop is a line too wide. -/
  outlines : ∀ id fault, d.forest.outline d.names id = .error (.fault fault)
    ↔ d.forest.FirstStop id (.fault fault)
  collected : ∃ ds, d.collect = .ok ds
  /-- If its source is short they are reported. -/
  reported : d.source.utf8ByteSize < maxWord → ∀ config, ∃ ds, Unguarded.report d config = .ok ds

/-- A document that was built is reached. -/
theorem Built.reachable (built : d.Built) : d.Reachable := by
  induction built with
  | finish reached run => exact .finish reached run
  | @edit d _ edit _ ih =>
      rw [stateOf_edit]
      exact ih.after (.change (.edit edit))
  | setContext _ context ih => exact ih.after (.setContext context)
  | groupOverloads _ ih => exact ih.after .groupOverloads
  | intern _ text ih => exact ih.after (.ask (.intern text))

/-- **A document that was built answers.** -/
theorem Built.safe (built : d.Built) : d.Safe := by
  obtain ⟨tree, -, -, former, document⟩ := built.sound
  obtain ⟨node, hnode, -⟩ := directivesOf_eq_ok_iff.1 document
  have known := lt_size_of_node? hnode
  have ruled : d.forest.Ruled := Ruled.empty.moves built.reachable.moves
  refine ⟨?_, fun tag => ?_, tree.verify_eq known, fun id refusal h => refusal_of_text h,
    fun id fault => tree.outline_eq_fault_iff d.names, ⟨_, tree.collect_eq known⟩,
    fun short config => ?_⟩
  · -- grouping agrees with the one that forgives, which finds no fault in trees
    rw [Unguarded.groupOverloads_agrees d ruled, heed, tree.groupOverloads_eq]
    cases hr : regroupDocument d.root d.forest with
    | ok groups g => exact Or.inl ⟨_, _, rfl⟩
    | error failure g =>
        obtain ⟨-, refusal, rfl⟩ := tree.regroupDocument_error hr
        exact Or.inr ⟨refusal, _, rfl⟩
  · rw [searchTag, Forest.searchTag, search, tree.descendants_eq known]
    exact ⟨_, rfl⟩
  · rw [Unguarded.report_eq short, report, tree.collect_eq known]
    exact ⟨_, rfl⟩

end Document

namespace Builder

variable {b : Builder}

/-- **A builder completes all its steps, and what it hands over is safe.**  Let a builder come from
the start, and let it do whatever steps, refused or not, on tables without guards.  If there is
still room in the table of names, the run does not break and leaves what the builder with guards
leaves; each step after it concludes with the same answer or refusal, and so does handing over the
document; and the document answers, before its declarations were grouped and after, except that an
outline breaks off if its first stop is a line that is too wide. -/
theorem safe_of_run (reached : b.Reached) (steps : List Step)
    (names : (runAll b steps).names.size < NameTable.capacity) :
    Unguarded.runAll b steps = .ok (runAll b steps)
      ∧ (∀ step, Concludes (Unguarded.perform step (runAll b steps))
        ∧ Unguarded.perform step (runAll b steps)
          = heed Stop.refused (perform step) (runAll b steps))
      ∧ (∀ directives, Unguarded.finish (runAll b steps) directives
        = ((runAll b steps).finish directives).mapError Stop.refused)
      ∧ ∀ directives d, (runAll b steps).finish directives = .ok d →
        d.Safe ∧ (stateOf (Document.groupOverloads d)).Safe := by
  have after := reached.runAll steps
  have sturdy := after.sturdy names
  have agrees := fun step => Unguarded.perform_agrees step _ sturdy
  refine ⟨Unguarded.runAll_eq reached steps names, fun step => ⟨?_, agrees step⟩,
    Unguarded.finish_eq sturdy.ruled, fun directives d run => ?_⟩
  · rw [agrees step]
    exact concludes_heed (perform step) _
  · have built := Document.Built.finish after run
    exact ⟨built.safe, built.groupOverloads.safe⟩

/-- Steps of a careless caller: a match over an arm that has an owner, a call of a node that does
not exist and one of nothing, a span that is the wrong way round, and a literal from outside of the
source. -/
def carelessSteps : List Step :=
  [ .beginFunction, .literal .null ⟨0, 1⟩, .literal .null ⟨2, 1⟩, .defaultArm ⟨1⟩ ⟨1, 2⟩,
    .matching ⟨0⟩ [⟨2⟩] ⟨0, 2⟩, .matching ⟨0⟩ [⟨2⟩] ⟨0, 2⟩,
    .call ⟨90⟩ [⟨3⟩] false ⟨0, 2⟩, .call NodeId.absent [] false ⟨0, 2⟩,
    .literalFromSource .integer ⟨8, 9⟩,
    .name "f" ⟨0, 1⟩, .function ⟨4⟩ none [] (some ⟨3⟩) ⟨0, 2⟩, .funDirective ⟨5⟩ false ⟨0, 2⟩,
    .beginFunction, .name "f" ⟨2, 3⟩, .function ⟨7⟩ none [] none ⟨2, 3⟩,
    .funDirective ⟨8⟩ false ⟨2, 3⟩ ]

/-- The builder after them. -/
def careless : Builder := runAll (start NameTable.fresh "f f" none) carelessSteps

/-- The document over the directives. -/
def carelessDocument : Document := (careless.finish [⟨6⟩, ⟨9⟩]).toOption.getD default

theorem safe_careless :
    (start NameTable.fresh "f f" none).Reached
      ∧ careless.names.size < NameTable.capacity
      ∧ Unguarded.runAll (start NameTable.fresh "f f" none) carelessSteps = .ok careless
      ∧ careless.finish [⟨6⟩, ⟨9⟩] = .ok carelessDocument ∧ carelessDocument.Safe
      ∧ (stateOf (Document.groupOverloads carelessDocument)).Safe := by
  have reached : (start NameTable.fresh "f f" none).Reached := .start .fresh "f f" none
  have names : careless.names.size < NameTable.capacity := by decide +kernel
  have handed : careless.finish [⟨6⟩, ⟨9⟩] = .ok carelessDocument :=
    Question.eq_ok_of_isOk (by decide +kernel)
  obtain ⟨run, -, -, safe⟩ := safe_of_run reached carelessSteps names
  exact ⟨reached, names, run, handed, safe _ _ handed⟩

/-- A document over a literal that was negated 32766 times: its outline breaks off. -/
theorem outline_of_deepSteps : (start NameTable.fresh "" none).Reached
    ∧ (runAll (start NameTable.fresh "" none) (deepSteps 32766)).names.size < NameTable.capacity
    ∧ ∃ d, (runAll (start NameTable.fresh "" none) (deepSteps 32766)).finish [⟨32773⟩, ⟨4⟩] = .ok d
      ∧ d.forest.outline d.names d.root = .error (.fault .tooWide) := by
  have reached : (start NameTable.fresh "" none).Reached := .start .fresh "" none
  have room : 32766 + 8 < maxWord := by decide
  obtain ⟨names, d, handed, stop⟩ := exists_deep room (by decide)
  have built := Document.Built.finish (reached.runAll (deepSteps 32766)) handed
  refine ⟨reached, ?_, d, handed, (built.safe.outlines d.root .tooWide).2 stop⟩
  rw [names]
  decide +kernel

end Builder

end SyntaxForest
