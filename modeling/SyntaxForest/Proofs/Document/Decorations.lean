/-
**Decorations stay.**

What passes find out about a document is written into cells: five sorts of them in its nodes, and
one in the document itself.  The cells of nodes are kept in a node, in what is recorded of a
function and in the list of its local variables, and while a document is regrouped nodes are made
and dropped again.  Still a cell that holds something holds it for ever, whatever is done; so a
pass may rely on what it has read.  A write is refused only where the cell is missing or holds
something else, and it changes its cell and nothing more.

Main definitions:

* `Forest.cell?`, `Forest.Settles` — what the cells of a forest hold, and a forest that keeps it;
* `Document.Cell`, `Document.Write`, `Document.write` — the cells of a document, and the writes;
* `Document.Reachable` — the documents that builders, changes and requests make.

Main results:

* `Forest.Evolves.settles` — **what evolves keeps what its cells hold**;
* `Forest.recorded_of_moves` — only functions have what is recorded of functions;
* `Document.exists_write_iff`, `Document.write_writes` — when a write is allowed, and what it does;
* `Document.decorations_of_requests` — **the three together.**
-/

import SyntaxForest.Proofs.Document.Requests
import SyntaxForest.Proofs.Forest.Locals
import SyntaxForest.Proofs.Forest.Rules

set_option relaxedAutoImplicit false
set_option autoImplicit false

namespace SyntaxForest

namespace Forest

variable {f g : Forest} {id : NodeId} {node : Node} {cell : Node.Cell} {value : Decoration}

/-! ### The cells of a forest -/

/-- What a cell of a node holds, if the node exists and anything is written. -/
def cell? (f : Forest) (id : NodeId) (cell : Node.Cell) : Option Decoration :=
  (f.node? id).bind fun node => node.read cell

/-- A forest that keeps what the cells of another hold, and the local variables. -/
structure Settles (f g : Forest) : Prop where
  cell? : ∀ {id cell value}, f.cell? id cell = some value → g.cell? id cell = some value
  locals : ∀ function, (f.locals function).length ≤ (g.locals function).length

theorem cell?_of_node? (hnode : f.node? id = some node) : f.cell? id cell = node.read cell := by
  rw [cell?, hnode, Option.bind_some]

/-- **What evolves keeps what its cells hold.** -/
theorem Evolves.settles (evolves : f.Evolves g) : f.Settles g where
  cell? {id cell value} held := by
    obtain ⟨node, hnode, hread⟩ := Option.bind_eq_some_iff.1 held
    obtain ⟨later, hlater, becomes⟩ := evolves.node hnode
    rw [cell?_of_node? hlater]
    exact becomes.settled hread
  locals := evolves.keepsLocals

/-- A forest without what its cells hold. -/
def bare (f : Forest) : Forest := ⟨f.nodes.map Node.bare, f.lists⟩

theorem node?_bare (f : Forest) (id : NodeId) : f.bare.node? id = (f.node? id).map Node.bare :=
  Array.getElem?_map

/-- A node that is the same without what its cells hold makes no difference to the rest. -/
theorem bare_replace {old new : Node} (here : f.node? id = some old) (same : new.bare = old.bare) :
    (f.replace id new).bare = f.bare := by
  refine ext_node? (fun other => ?_) (lists_replace f id new)
  rw [node?_bare, node?_bare]
  by_cases hother : other = id
  · rw [hother, node?_replace_self here, here, Option.map_some, Option.map_some, same]
  · rw [node?_replace_of_ne hother]

/-! ### Functions -/

/-- Functions, and only these, have what is recorded of functions. -/
def Recorded (f : Forest) : Prop := ∀ id node, f.node? id = some node → node.Recorded

namespace Recorded

theorem empty : Recorded empty := fun _ _ hnode =>
  absurd (lt_size_of_node? hnode) (Nat.not_lt_zero _)

/-- The nodes of before have it as they had it. -/
theorem of_lt (recorded : f.Recorded) (evolves : f.Evolves g) (here : g.node? id = some node)
    (lt : id.raw < f.size) : node.Recorded := by
  obtain ⟨old, hold⟩ := node?_isSome_iff.2 lt
  obtain ⟨later, hlater, becomes⟩ := evolves.node hold
  obtain rfl := Option.some.inj (here.symm.trans hlater)
  rw [Node.Recorded, becomes.info, becomes.tag]
  exact recorded id old hold

theorem of_size_le (recorded : f.Recorded) (evolves : f.Evolves g) (le : g.size ≤ f.size) :
    g.Recorded := fun _ _ here =>
  recorded.of_lt evolves here (Nat.lt_of_lt_of_le (lt_size_of_node? here) le)

/-- A node that is made is recorded as what it is. -/
theorem add {shape : Shape} {span : Span} (donor : Option NodeId) (recorded : f.Recorded)
    (admits : f.Admits shape span) : (f.add shape span donor).Recorded := by
  intro id node here
  rcases admits.node?_add_cases here with ⟨old, hold, -⟩ | ⟨rfl, rfl⟩
  · exact recorded.of_lt (Evolves.add admits donor) here (lt_size_of_node? hold)
  · rw [Node.Recorded, Node.fresh]
    dsimp only
    cases shape.tag.isFunction <;> rfl

end Recorded

/-- **What moves make of the empty forest is recorded as what it is.** -/
theorem recorded_of_moves (moves : empty.Moves f) : f.Recorded :=
  moves.preserves Recorded.empty Recorded.of_size_le fun recorded admits _ =>
    recorded.add _ admits

end Forest

/-! ### The cells of a document -/

def Node.Write.edit (id : NodeId) : Node.Write → Edit
  | .type t => .setType id t
  | .nativeType t => .setNativeType id t
  | .operation o => .setOperation id o
  | .identifier n => .setIdentifier id n
  | .localType slot t => .setLocalType id slot t

open Forest in
theorem Node.Write.run_edit (id : NodeId) (write : Node.Write) :
    (write.edit id).run = (fun _ => Edit.Answer.done) <$> decorate id (write.rule id) := by
  cases write <;> rfl

namespace Builder

open Forest

variable {b : Builder}

theorem Reached.moves (reached : b.Reached) : Forest.empty.Moves b.forest := by
  induction reached with
  | start _ _ _ => exact Moves.refl Forest.empty
  | step _ step ih => exact ih.trans (reaches_after _ step).moves
  | intern _ _ ih => exact ih

end Builder

namespace Document

inductive Cell
  | node (id : NodeId) (cell : Node.Cell)
  | context
  deriving DecidableEq

/-- The cells of a document are those of the nodes that it has, and its own. -/
def HasCell (d : Document) : Cell → Prop
  | .node id cell => ∃ node, d.forest.node? id = some node ∧ node.HasCell cell
  | .context => True

/-- What a cell holds, if it is there and anything is written. -/
def cell? (d : Document) : Cell → Option Decoration
  | .node id cell => d.forest.cell? id cell
  | .context => d.context.map .context

/-- A document without what its cells hold. -/
def bare (d : Document) : Document :=
  { d with forest := d.forest.bare, context := none }

inductive Write
  | node (id : NodeId) (write : Node.Write)
  | context (context : ContextId)

def Write.cell : Write → Cell
  | .node id write => .node id write.cell
  | .context _ => .context

def Write.value : Write → Decoration
  | .node _ write => write.value
  | .context c => .context c

/-- **Writes a cell.** -/
def write : Write → EStateM Refusal Document Unit
  | .node id write => (fun _ => ()) <$> edit (write.edit id)
  | .context c => setContext c

variable {d e : Document} {write : Write}

/-- The documents that a builder hands over or that are put over a forest that changes have made,
and what requests make of them. -/
inductive Reachable : Document → Prop
  | finish {b : Builder} {directives : List NodeId} {d : Document} (reached : b.Reached)
      (run : b.finish directives = .ok d) : Reachable d
  /-- It is put over a forest that changes have made. -/
  | changed {d : Document} (made : d.forest.Made) : Reachable d
  | after {d : Document} (reachable : Reachable d) (request : Request) :
      Reachable (d.after request)

/-! ### Writes -/

theorem edit_eq_ok_iff {change : Edit} {answer : Edit.Answer} :
    edit change d = .ok answer e
      ↔ ∃ g, change.run d.forest = .ok answer g ∧ e = { d with forest := g } := by
  unfold edit
  dsimp only
  cases change.run d.forest with
  | error refusal g => exact ⟨fun h => (nomatch h), fun ⟨_, h, _⟩ => (nomatch h)⟩
  | ok found g =>
      constructor
      · intro h
        cases h
        exact ⟨g, rfl, rfl⟩
      · rintro ⟨_, h, rfl⟩
        cases h
        rfl

/-- A cell of a node is written by the rule of the write. -/
theorem write_node_eq_ok_iff {id : NodeId} {change : Node.Write} :
    Document.write (.node id change) d = .ok () e
      ↔ ∃ old new, d.forest.node? id = some old ∧ change.rule id old = .ok new
        ∧ e = { d with forest := d.forest.replace id new } := by
  rw [Document.write, Step.map_eq_ok_iff]
  simp only [edit_eq_ok_iff, Node.Write.run_edit, Step.map_eq_ok_iff, Forest.decorate_eq_ok_iff]
  constructor
  · rintro ⟨_, ⟨g, ⟨_, ⟨old, new, hold, hnew, rfl⟩, rfl⟩, rfl⟩, -⟩
    exact ⟨old, new, hold, hnew, rfl⟩
  · rintro ⟨old, new, hold, hnew, rfl⟩
    exact ⟨_, ⟨_, ⟨(), ⟨old, new, hold, hnew, rfl⟩, rfl⟩, rfl⟩, True.intro⟩

/-- The context is written once. -/
theorem setContext_eq_ok_iff {context : ContextId} : setContext context d = .ok () e
    ↔ (d.context = none ∨ d.context = some context)
      ∧ e = { d with context := some context } := by
  unfold setContext Node.once
  split
  · next h =>
      refine ⟨fun heq => (nomatch heq), fun heq => ?_⟩
      rw [if_pos heq.1] at h
      cases h
  · next written h =>
      split at h
      · next free =>
          cases h
          refine ⟨fun heq => ⟨free, ?_⟩, fun heq => ?_⟩
          · cases heq
            rfl
          · rw [heq.2]
      · cases h

/-- What is refused changes nothing. -/
theorem write_refused {refusal : Refusal} (h : Document.write write d = .error refusal e) :
    e = d := by
  cases write with
  | node id change =>
      cases hr : Forest.decorate id (change.rule id) d.forest with
      | ok done g =>
          obtain ⟨old, new, hold, hnew, -⟩ := Forest.decorate_eq_ok_iff.1 hr
          have hdone := write_node_eq_ok_iff.2 ⟨old, new, hold, hnew, rfl⟩
          rw [h] at hdone
          cases hdone
      | error other g =>
          obtain rfl := Forest.decorate_refused hr
          have hedit : edit (change.edit id) d = .error other d := by
            unfold edit
            dsimp only
            rw [Node.Write.run_edit, Step.map_eq_error_iff.2 hr]
          rw [Document.write, Step.map_eq_error_iff.2 hedit] at h
          cases h
          rfl
  | context c =>
      have hset : setContext c d = .error refusal e := h
      unfold setContext at hset
      split at hset
      · cases hset
        rfl
      · cases hset

/-- **When a write is allowed:** the cell is there, and holds nothing or what is to be written. -/
theorem exists_write_iff (recorded : d.forest.Recorded) :
    (∃ e, Document.write write d = .ok () e) ↔ d.HasCell write.cell
      ∧ (d.cell? write.cell = none ∨ d.cell? write.cell = some write.value) := by
  cases write with
  | node id change =>
      simp only [write_node_eq_ok_iff, Write.cell, Write.value, HasCell, cell?]
      constructor
      · rintro ⟨_, old, new, hold, hnew, -⟩
        obtain ⟨has, free⟩ := (Node.Write.exists_rule_iff (recorded id old hold)).1 ⟨new, hnew⟩
        rw [Forest.cell?_of_node? hold]
        exact ⟨⟨old, hold, has⟩, free⟩
      · rintro ⟨⟨old, hold, has⟩, free⟩
        rw [Forest.cell?_of_node? hold] at free
        obtain ⟨new, hnew⟩ : ∃ new, change.rule id old = .ok new :=
          (Node.Write.exists_rule_iff (recorded id old hold)).2 ⟨has, free⟩
        exact ⟨_, old, new, hold, hnew, rfl⟩
  | context c =>
      have hallowed : (∃ e, setContext c d = .ok () e)
          ↔ d.context = none ∨ d.context = some c := by
        simp only [setContext_eq_ok_iff, exists_and_left, exists_eq, and_true]
      refine hallowed.trans ?_
      simp only [Write.cell, Write.value, HasCell, cell?, true_and]
      cases d.context <;> simp

/-- **What a write does:** its cell holds what is written, and nothing else has changed. -/
theorem write_writes (h : Document.write write d = .ok () e) :
    e.cell? write.cell = write.value.written?
      ∧ (∀ cell, cell ≠ write.cell → e.cell? cell = d.cell? cell) ∧ e.bare = d.bare := by
  cases write with
  | node id change =>
      obtain ⟨old, new, hold, hnew, rfl⟩ := write_node_eq_ok_iff.1 h
      obtain ⟨hwritten, hothers, hbare⟩ := Node.Write.rule_writes hnew
      have hself : (d.forest.replace id new).node? id = some new :=
        Forest.node?_replace_self hold
      refine ⟨?_, fun cell hne => ?_, ?_⟩
      · exact (Forest.cell?_of_node? hself).trans hwritten
      · cases cell with
        | node other cell =>
            by_cases hother : other = id
            · subst hother
              have hcell : cell ≠ change.cell := fun heq => hne (congrArg (Cell.node other) heq)
              exact (Forest.cell?_of_node? hself).trans
                ((hothers cell hcell).trans (Forest.cell?_of_node? hold).symm)
            · show ((d.forest.replace id new).node? other).bind _ = _
              rw [Forest.node?_replace_of_ne hother]
              rfl
        | context => rfl
      · rw [bare, bare, Forest.bare_replace hold hbare]
  | context c =>
      obtain ⟨-, rfl⟩ := setContext_eq_ok_iff.1 h
      refine ⟨rfl, fun cell hne => ?_, rfl⟩
      cases cell with
      | node id cell => rfl
      | context => exact absurd rfl hne

/-! ### The whole -/

/-- The forest of a document is moves away from nothing. -/
theorem Reachable.moves (reachable : d.Reachable) : Forest.empty.Moves d.forest := by
  induction reachable with
  | finish reached run =>
      obtain ⟨c, reaches, hforest, -⟩ := Builder.reaches_finish run
      rw [hforest]
      exact reached.moves.trans reaches.moves
  | changed made =>
      obtain ⟨changes, hchanges⟩ := made
      rw [hchanges]
      exact Forest.moves_runAll Forest.empty changes
  | after _ request ih => exact ih.trans (moves_after _ request)

/-- A context that is written stays. -/
theorem context_runAll {c : ContextId} (held : d.context = some c) (requests : List Request) :
    (d.runAll requests).context = some c := by
  induction requests generalizing d with
  | nil => exact held
  | cons request rest ih =>
      refine ih ?_
      cases request with
      | change change => exact held
      | setContext other =>
          rw [after]
          cases hr : setContext other d with
          | ok done e =>
              obtain ⟨hfree, rfl⟩ := setContext_eq_ok_iff.1 hr
              rw [held] at hfree
              rcases hfree with hnone | hsame
              · cases hnone
              · exact hsame.symm
          | error refusal e =>
              have hrefused : Document.write (.context other) d = .error refusal e := hr
              obtain rfl := write_refused hrefused
              exact held
      | groupOverloads =>
          obtain ⟨forest, -, hforest⟩ := stateOf_groupOverloads d
          rw [after, hforest]
          exact held
      | setRoot root => exact held
      | ask request => exact held

/-- **Decorations stay, and are written only once.**  Whatever is done to a document, or to a
builder before it, a cell that holds something holds it for ever, and no function loses a local
variable.  A write is allowed exactly if its cell is there and holds nothing or what is to be
written; then the cell holds what is written, and no other cell and nothing else has changed.  A
write that is refused changes nothing. -/
theorem decorations_of_requests (reachable : d.Reachable) :
    (∀ requests, d.forest.Settles (d.runAll requests).forest
        ∧ ∀ c, d.context = some c → (d.runAll requests).context = some c)
      ∧ (∀ b c : Builder, b.Follows c → b.forest.Settles c.forest
        ∧ ∀ directives handed, c.finish directives = .ok handed →
          b.forest.Settles handed.forest)
      ∧ ∀ write : Write,
        ((∃ e, Document.write write d = .ok () e) ↔ d.HasCell write.cell
          ∧ (d.cell? write.cell = none ∨ d.cell? write.cell = some write.value))
        ∧ (∀ e, Document.write write d = .ok () e → e.cell? write.cell = write.value.written?
          ∧ (∀ cell, cell ≠ write.cell → e.cell? cell = d.cell? cell) ∧ e.bare = d.bare)
        ∧ ∀ refusal e, Document.write write d = .error refusal e → e = d := by
  have recorded := Forest.recorded_of_moves reachable.moves
  refine ⟨fun requests => ⟨?_, fun c held => context_runAll held requests⟩,
    fun b c follows => ⟨follows.reaches.evolves.settles, fun directives handed run => ?_⟩,
    fun write => ⟨exists_write_iff recorded, fun e h => write_writes h,
      fun refusal e h => write_refused h⟩⟩
  · exact (Forest.Evolves.moves (moves_runAll d requests)).settles
  · obtain ⟨last, hlast, hforest, -⟩ := Builder.reaches_finish run
    rw [hforest]
    exact (follows.reaches.trans hlast).evolves.settles

/-- Two declarations of functions and a declaration of a variable whose type is written. -/
def withType : Document :=
  { (default : Document) with
    forest := Forest.Change.runAll Forest.empty
      (Forest.twoDeclarations ++ [.edit (.setType ⟨7⟩ ⟨5⟩)])
    root := ⟨8⟩ }

/-- The type stays when the functions are grouped and another type is tried; it can be written
again, but no other. -/
theorem decorations_withType : withType.Reachable
    ∧ withType.forest.cell? ⟨7⟩ .type = some (.type ⟨5⟩)
    ∧ (withType.runAll [.groupOverloads, .change (.edit (.setType ⟨7⟩ ⟨6⟩))]).forest.cell? ⟨7⟩ .type
      = some (.type ⟨5⟩)
    ∧ (∃ e, Document.write (.node ⟨7⟩ (.type ⟨5⟩)) withType = .ok () e)
    ∧ ¬ ∃ e, Document.write (.node ⟨7⟩ (.type ⟨6⟩)) withType = .ok () e := by
  have reachable : withType.Reachable := .changed ⟨_, rfl⟩
  have here : (withType.forest.node? ⟨7⟩).isSome = true := by decide +kernel
  have held : withType.forest.cell? ⟨7⟩ .type = some (.type ⟨5⟩) := by decide +kernel
  obtain ⟨node, hnode⟩ := Option.isSome_iff_exists.1 here
  obtain ⟨stays, -, writes⟩ := decorations_of_requests reachable
  refine ⟨reachable, held, (stays _).1.cell? held, ?_, fun h => ?_⟩
  · exact (writes (.node ⟨7⟩ (.type ⟨5⟩))).1.2 ⟨⟨node, hnode, True.intro⟩, Or.inr held⟩
  · rcases ((writes (.node ⟨7⟩ (.type ⟨6⟩))).1.1 h).2 with hnone | hother
    · exact absurd (held.symm.trans hnone) (by simp)
    · exact absurd (held.symm.trans hother) (by decide)

end Document

end SyntaxForest
