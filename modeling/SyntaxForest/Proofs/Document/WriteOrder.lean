/-
**The order of writes.**

Passes write what they find out about a document in no fixed order, and each of them may be refused
because of what the others have written before.  Two writes of one cell can both be done only if
they write the same, and two writes of different cells do not notice each other, although three
sorts of cells share the record of one function.  So if a batch of writes is done without a refusal
in one order, it is done in every order, and the document is the same in the end.  This needs that
each write writes something: what stands for nothing written yet may be replaced, but does not
replace, and so it is taken only while it comes first.

Main definitions:

* `Node.Write.put`, `Document.Write.put` — a node and a document into which a cell is written;
* `Document.writeAll` — several writes in a row, up to the first that is refused.

Main results:

* `Node.Write.put_comm`, `Document.Write.put_comm` — writes of different cells commute;
* `Document.write_swap` — **two writes in a row can change places**;
* `Document.order_of_writes` — **so the order of writes does not matter.**
-/

import SyntaxForest.Proofs.Document.Decorations

set_option relaxedAutoImplicit false
set_option autoImplicit false

namespace SyntaxForest

namespace Node

variable {old new : Node} {id : NodeId}

/-! ### Writes of one node -/

namespace Write

variable {first second : Write}

/-- A node into which a cell is written, whatever it held. -/
def put : Write → Node → Node
  | .type t, n => { n with type := t }
  | .nativeType t, n => { n with nativeType := some t }
  | .operation o, n => { n with operation := some o }
  | .identifier name, n =>
      { n with info := n.info.map fun info => { info with identifier := name } }
  | .localType slot t, n =>
      { n with info := n.info.map fun info =>
          { info with locals := info.locals.set slot.raw t } }

/-- A write that is allowed writes its cell. -/
theorem eq_put_of_rule (h : first.rule id old = .ok new) : new = first.put old := by
  cases first with
  | type t => exact (setType_eq_ok_iff.1 h).2
  | nativeType t => exact (setNativeType_eq_ok_iff.1 h).2.2
  | operation o => exact (setOperation_eq_ok_iff.1 h).2.2
  | identifier name =>
      obtain ⟨info, hinfo, -, rfl⟩ := setIdentifier_eq_ok_iff.1 h
      simp only [put, hinfo, Option.map_some]
  | localType slot t =>
      obtain ⟨info, hinfo, current, -, -, rfl⟩ := setLocalType_eq_ok_iff.1 h
      simp only [put, hinfo, Option.map_some]

/-- **Writes of different cells commute.** -/
theorem put_comm (apart : first.cell ≠ second.cell) (n : Node) :
    first.put (second.put n) = second.put (first.put n) := by
  cases first <;> cases second <;> try rfl
  case type.type | nativeType.nativeType | operation.operation | identifier.identifier =>
    exact absurd rfl apart
  case identifier.localType | localType.identifier =>
    simp only [put, Option.map_map, Function.comp_def]
  case localType.localType slot t other u =>
    have hslots : slot.raw ≠ other.raw := fun heq => apart (by
      cases slot
      cases other
      exact congrArg (fun raw => Cell.localType ⟨raw⟩) heq)
    simp only [put, Option.map_map, Function.comp_def, List.set_comm _ _ hslots]

theorem eq_of_cell (cells : first.cell = second.cell) (values : first.value = second.value) :
    first = second := by
  cases first <;> cases second <;> simp_all [cell, value]

end Write

/-! ### What does not depend on cells -/

/-- Which cells a node has does not depend on what they hold. -/
theorem hasCell_bare (n : Node) (cell : Cell) : n.bare.HasCell cell ↔ n.HasCell cell := by
  cases cell with
  | localType slot =>
      change _ ∧ slot.raw < n.bare.locals.length ↔ _
      rw [locals_bare, List.length_map]
      rfl
  | _ => rfl

theorem recorded_bare (n : Node) : n.bare.Recorded ↔ n.Recorded := by
  simp only [Recorded, bare, Option.isSome_map]

end Node

namespace Forest

variable {f g : Forest}

theorem exists_node?_of_bare (same : g.bare = f.bare) {id : NodeId} {node : Node}
    (here : f.node? id = some node) :
    ∃ other, g.node? id = some other ∧ other.bare = node.bare := by
  have hbare : g.bare.node? id = some node.bare := by rw [same, node?_bare, here, Option.map_some]
  rw [node?_bare] at hbare
  exact Option.map_eq_some_iff.1 hbare

theorem Recorded.congr (recorded : f.Recorded) (same : g.bare = f.bare) : g.Recorded := by
  intro id node here
  obtain ⟨other, hother, hbare⟩ := exists_node?_of_bare same.symm here
  rw [← Node.recorded_bare, ← hbare, Node.recorded_bare]
  exact recorded id other hother

end Forest

namespace Document

variable {d e last : Document} {first second : Write} {writes others : List Write}

/-! ### Two writes -/

/-- A document into which a cell is written, whatever it held. -/
def Write.put : Write → Document → Document
  | .node id write, d =>
      { d with forest := ⟨d.forest.nodes.modify id.raw write.put, d.forest.lists⟩ }
  | .context c, d => { d with context := some c }

theorem Write.eq_put_of_write (h : Document.write first d = .ok () e) : e = first.put d := by
  cases first with
  | node id write =>
      obtain ⟨old, new, hold, hnew, rfl⟩ := write_node_eq_ok_iff.1 h
      have hforest : d.forest.replace id new
          = ⟨d.forest.nodes.modify id.raw write.put, d.forest.lists⟩ := by
        refine Forest.ext_node? (fun other => ?_) rfl
        have hmodified :
            Forest.node? ⟨d.forest.nodes.modify id.raw write.put, d.forest.lists⟩ other
              = if id.raw = other.raw then (d.forest.node? other).map write.put
                else d.forest.node? other := Array.getElem?_modify
        rw [hmodified]
        by_cases hother : other = id
        · rw [hother, Forest.node?_replace_self hold, if_pos rfl, hold, Option.map_some,
            Node.Write.eq_put_of_rule hnew]
        · have hraw : id.raw ≠ other.raw := fun heq => hother (NodeId.eq_of_raw heq.symm)
          rw [Forest.node?_replace_of_ne hother, if_neg hraw]
      rw [hforest]
      rfl
  | context c => exact (setContext_eq_ok_iff.1 h).2

/-- **Writes of different cells commute.** -/
theorem Write.put_comm (apart : first.cell ≠ second.cell) (d : Document) :
    first.put (second.put d) = second.put (first.put d) := by
  cases first with
  | node id write =>
      cases second with
      | node other change =>
          refine congrArg (fun nodes => { d with forest := ⟨nodes, d.forest.lists⟩ })
            (Array.ext_getElem? fun i => ?_)
          simp only [Write.put, Array.getElem?_modify]
          by_cases hid : id.raw = i <;> by_cases hother : other.raw = i <;>
            simp only [hid, hother, if_true, if_false]
          -- both write the same node, so they write different cells of it
          have hsame : id = other := NodeId.eq_of_raw (hid.trans hother.symm)
          have hcells : write.cell ≠ change.cell := fun heq => apart (by
            rw [Write.cell, Write.cell, hsame, heq])
          simp only [Option.map_map, Function.comp_def, Node.Write.put_comm hcells]
      | context c => rfl
  | context c =>
      cases second with
      | node id write => rfl
      | context other => exact absurd rfl apart

/-- A write is known by its cell and by what is written. -/
theorem Write.eq_of_cell (cells : first.cell = second.cell) (values : first.value = second.value) :
    first = second := by
  cases first with
  | node id write =>
      cases second with
      | node other change =>
          obtain ⟨rfl, hcell⟩ := Cell.node.inj cells
          rw [Node.Write.eq_of_cell hcell values]
      | context c => cases cells
  | context c =>
      cases second with
      | node id write => cases cells
      | context other =>
          cases values
          rfl

/-- Which cells a document has does not depend on what they hold. -/
theorem HasCell.congr {cell : Cell} (has : d.HasCell cell) (same : e.bare = d.bare) :
    e.HasCell cell := by
  cases cell with
  | node id cell =>
      obtain ⟨node, here, has⟩ := has
      have hbare : e.forest.bare = d.forest.bare := congrArg Document.forest same
      obtain ⟨other, hother, hnode⟩ := Forest.exists_node?_of_bare hbare here
      refine ⟨other, hother, ?_⟩
      rwa [← Node.hasCell_bare, hnode, Node.hasCell_bare]
  | context => exact True.intro

/-- A write that is allowed is allowed where only other cells hold something else. -/
theorem exists_write_congr (recorded : d.forest.Recorded) (same : e.bare = d.bare)
    (cell : e.cell? first.cell = d.cell? first.cell)
    (allowed : ∃ after, Document.write first d = .ok () after) :
    ∃ after, Document.write first e = .ok () after := by
  obtain ⟨has, free⟩ := (exists_write_iff recorded).1 allowed
  have hrecorded : e.forest.Recorded := recorded.congr (congrArg Document.forest same)
  refine (exists_write_iff hrecorded).2 ⟨has.congr same, ?_⟩
  rw [cell]
  exact free

/-- **Two writes in a row can change places,** if they write something. -/
theorem write_swap (recorded : d.forest.Recorded) (writes : first.value.isUnset = false)
    (run : Document.write first d = .ok () e) (next : Document.write second e = .ok () last) :
    ∃ other, Document.write second d = .ok () other
      ∧ Document.write first other = .ok () last := by
  obtain ⟨written, others, bare⟩ := write_writes run
  have hrecorded : e.forest.Recorded := recorded.congr (congrArg Document.forest bare)
  by_cases cells : second.cell = first.cell
  · -- what is written into one cell twice is the same
    have hheld : e.cell? second.cell = some first.value := by
      rw [cells, written]
      exact Decoration.written?_eq_some_iff.2 ⟨rfl, writes⟩
    have hvalues : second.value = first.value := by
      rcases ((exists_write_iff hrecorded).1 ⟨last, next⟩).2 with hnone | hsame
      · rw [hheld] at hnone
        cases hnone
      · exact Option.some.inj (hsame.symm.trans hheld)
    obtain rfl := Write.eq_of_cell cells hvalues
    exact ⟨e, run, next⟩
  · obtain ⟨other, hother⟩ : ∃ other, Document.write second d = .ok () other :=
      exists_write_congr hrecorded bare.symm (others _ cells).symm ⟨last, next⟩
    obtain ⟨-, untouched, same⟩ := write_writes hother
    obtain ⟨after, hafter⟩ : ∃ after, Document.write first other = .ok () after :=
      exists_write_congr recorded same (untouched _ (Ne.symm cells)) ⟨e, run⟩
    refine ⟨other, hother, ?_⟩
    rw [hafter, Write.eq_put_of_write hafter, Write.eq_put_of_write hother,
      Write.eq_put_of_write next, Write.eq_put_of_write run, Write.put_comm (Ne.symm cells)]

/-! ### Any number of writes -/

/-- Several writes in a row, up to the first that is refused. -/
def writeAll (writes : List Write) : EStateM Refusal Document Unit := writes.forM Document.write

theorem writeAll_cons_eq_ok_iff : writeAll (first :: writes) d = .ok () last ↔
    ∃ e, Document.write first d = .ok () e ∧ writeAll writes e = .ok () last := by
  change (Document.write first >>= fun _ => writeAll writes) d = _ ↔ _
  rw [Step.bind_eq_ok_iff]
  exact ⟨fun ⟨_, e, h⟩ => ⟨e, h⟩, fun ⟨e, h⟩ => ⟨(), e, h⟩⟩

/-- Writes in one order are writes in any other. -/
theorem writeAll_perm (perm : writes.Perm others) (recorded : d.forest.Recorded)
    (write : ∀ write ∈ writes, write.value.isUnset = false)
    (run : writeAll writes d = .ok () last) : writeAll others d = .ok () last := by
  induction perm generalizing d with
  | nil => exact run
  | cons first _ ih =>
      obtain ⟨e, hfirst, hrest⟩ := writeAll_cons_eq_ok_iff.1 run
      have hrecorded : e.forest.Recorded :=
        recorded.congr (congrArg Document.forest (write_writes hfirst).2.2)
      exact writeAll_cons_eq_ok_iff.2
        ⟨e, hfirst, ih hrecorded (List.forall_mem_of_forall_mem_cons write) hrest⟩
  | swap second first rest =>
      obtain ⟨e, hfirst, hnext⟩ := writeAll_cons_eq_ok_iff.1 run
      obtain ⟨after, hsecond, hrest⟩ := writeAll_cons_eq_ok_iff.1 hnext
      obtain ⟨other, hother, hafter⟩ :=
        write_swap recorded (write _ List.mem_cons_self) hfirst hsecond
      exact writeAll_cons_eq_ok_iff.2
        ⟨other, hother, writeAll_cons_eq_ok_iff.2 ⟨after, hafter, hrest⟩⟩
  | trans first _ ih ih' =>
      exact ih' recorded (fun w hw => write w (first.mem_iff.2 hw)) (ih recorded write run)

/-- **The order of writes does not matter.**  If writes of which each writes something are done in
one order and none of them is refused, then none of them is refused in any other order, and the
document is the same in the end: every cell of every node holds the same, and nothing else
differs. -/
theorem order_of_writes (reachable : d.Reachable)
    (write : ∀ write ∈ writes, write.value.isUnset = false)
    (run : writeAll writes d = .ok () e) :
    ∀ others : List Write, writes.Perm others → writeAll others d = .ok () e := fun _ perm =>
  writeAll_perm perm (Forest.recorded_of_moves reachable.moves) write run

/-- The type and the unique name of a function and the context of a document, and the type once
more. -/
def fourWrites : List Write :=
  [.node ⟨1⟩ (.type ⟨5⟩), .node ⟨1⟩ (.identifier ⟨3⟩), .context ⟨2⟩, .node ⟨1⟩ (.type ⟨5⟩)]

/-- They can be done in the order that they stand in, and so the other way round. -/
theorem order_of_fourWrites : withType.Reachable
    ∧ (∀ write ∈ fourWrites, write.value.isUnset = false)
    ∧ ∃ e, writeAll fourWrites withType = .ok () e
      ∧ writeAll fourWrites.reverse withType = .ok () e
      ∧ e.forest.cell? ⟨1⟩ .identifier = some (.name ⟨3⟩) := by
  have reachable : withType.Reachable := .changed ⟨_, rfl⟩
  have write : ∀ write ∈ fourWrites, write.value.isUnset = false := by decide
  obtain ⟨e, run, held⟩ : ∃ e, writeAll fourWrites withType = .ok () e
      ∧ e.forest.cell? ⟨1⟩ .identifier = some (.name ⟨3⟩) := ⟨_, rfl, by decide +kernel⟩
  exact ⟨reachable, write, e, run,
    order_of_writes reachable write run _ (List.reverse_perm fourWrites).symm, held⟩

/-- A type that stands for nothing written is refused once a type is written, and not before. -/
example : (∃ e, writeAll [.node ⟨1⟩ (.type TypeId.unresolved), .node ⟨1⟩ (.type ⟨5⟩)] withType
      = .ok () e)
    ∧ ∃ refusal e, writeAll [.node ⟨1⟩ (.type ⟨5⟩), .node ⟨1⟩ (.type TypeId.unresolved)] withType
      = .error refusal e :=
  ⟨⟨_, rfl⟩, _, _, rfl⟩

end Document

end SyntaxForest
