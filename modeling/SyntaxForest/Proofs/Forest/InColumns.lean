/-
**The columns of a forest.**

A forest is put into columns by reading one field of all its nodes at a time; what only some nodes
have becomes a side table.  Nothing is lost by that: the columns describe the forest that they come
from.  One thing has to be known for it.  In a column of owners the number that names nothing stands
for no owner, so no node may really be owned by it.

What is done to a forest is then said of its columns.  A change of one field leaves all the other
columns and side tables.  When nodes are dropped the side tables are gone through number by number,
and the entries that are left are those of the nodes that are left, so none waits for the next node
that is given its number.

Main definitions:

* `Side.of`, `Forest.columns` — the side table of a field, and a forest in columns;
* `Forest.Numbered` — nodes and owners have numbers that name something.

Main results:

* `Forest.forest_columns` — **columns describe the forest that they come from**;
* `Forest.columns_add`, `Forest.columns_set_type`, `Forest.columns_set_errors`, … — a node more, and
  the decorations, in columns;
* `Forest.columns_reshape` — contents that are exchanged, in columns;
* `Forest.columns_rollback` — **falling back to a mark, in columns.**
-/

import SyntaxForest.Proofs.Forest.Columns
import SyntaxForest.Proofs.Forest.Owners

set_option relaxedAutoImplicit false
set_option autoImplicit false

namespace SyntaxForest

/-! ### Columns and side tables of nodes -/

namespace Side

variable {α : Type} {read : Node → Option α} {nodes other : Array Node} {node old new : Node}
  {id : NodeId}

/-- The side table of what some nodes have. -/
def of (read : Node → Option α) (nodes : Array Node) : Side α := fun id => nodes[id.raw]?.bind read

theorem of_of_node (h : nodes[id.raw]? = some node) : of read nodes id = read node := by
  rw [of, h, Option.bind_some]

theorem of_of_le (h : nodes.size ≤ id.raw) : of read nodes id = none := by
  rw [of, Array.getElem?_eq_none h, Option.bind_none]

theorem of_empty : of read #[] = empty := funext fun _ => of_of_le (Nat.zero_le _)

/-- A node more has an entry if it has something to record. -/
theorem of_push (read : Node → Option α) (nodes : Array Node) (node : Node) :
    of read (nodes.push node) = Function.update (of read nodes) ⟨nodes.size⟩ (read node) := by
  funext id
  by_cases hid : id = ⟨nodes.size⟩
  · subst hid
    rw [Function.update_self, of, Array.getElem?_push_size, Option.bind_some]
  · have hne : id.raw ≠ nodes.size := fun h => hid (NodeId.eq_of_raw h)
    rw [Function.update_of_ne hid, of, of, Array.getElem?_push, if_neg hne]

theorem of_push_none (h : read node = none) : of read (nodes.push node) = of read nodes := by
  rw [of_push, h]
  exact Function.update_eq_self_iff.2 (of_of_le (Nat.le_refl _)).symm

/-- Another node has another entry. -/
theorem of_set (here : nodes[id.raw]? = some old) (new : Node) :
    of read (nodes.setIfInBounds id.raw new) = Function.update (of read nodes) id (read new) := by
  obtain ⟨hlt, -⟩ := Array.getElem?_eq_some_iff.1 here
  funext other
  by_cases ho : other = id
  · subst ho
    rw [Function.update_self, of, Array.getElem?_setIfInBounds_self_of_lt hlt, Option.bind_some]
  · have hne : id.raw ≠ other.raw := fun h => ho (NodeId.eq_of_raw h.symm)
    rw [Function.update_of_ne ho, of, of, Array.getElem?_setIfInBounds_ne hne]

theorem of_set_of_eq (here : nodes[id.raw]? = some old) (same : read new = read old) :
    of read (nodes.setIfInBounds id.raw new) = of read nodes := by
  have hentry : of read nodes id = read old := of_of_node here
  rw [of_set here, same, ← hentry, Function.update_eq_self]

theorem of_set_of_some {entry : α} (here : nodes[id.raw]? = some old)
    (recorded : read new = some entry) :
    of read (nodes.setIfInBounds id.raw new) = (of read nodes).put id entry := by
  rw [of_set here, recorded, put]

/-- Nodes that are changed where nothing is read have the same entries. -/
theorem of_congr {change : Nat → Node → Node}
    (changed : ∀ i, other[i]? = nodes[i]?.map (change i))
    (same : ∀ i node, read (change i node) = read node) : of read other = of read nodes := by
  funext id
  rw [of, of, changed]
  cases nodes[id.raw]? with
  | none => rfl
  | some node => exact same id.raw node

/-! ### Dropping entries -/

theorem dropLast_apply (kept extra : Nat) (table : Side α) (id : NodeId) :
    table.dropLast kept extra id
      = if kept ≤ id.raw ∧ id.raw < kept + extra then none else table id := by
  induction extra generalizing table with
  | zero =>
      rw [if_neg (fun h => absurd h.2 (Nat.not_lt.2 h.1))]
      rfl
  | succ extra ih =>
      rw [dropLast, ih, drop]
      by_cases hid : id = ⟨kept + extra⟩
      · subst hid
        rw [if_neg (fun h => Nat.lt_irrefl _ h.2), Function.update_self,
          if_pos ⟨Nat.le_add_right _ _, Nat.lt_succ_self _⟩]
      · have hne : id.raw ≠ kept + extra := fun h => hid (NodeId.eq_of_raw h)
        have hiff : (kept ≤ id.raw ∧ id.raw < kept + extra)
            ↔ (kept ≤ id.raw ∧ id.raw < kept + (extra + 1)) := by omega
        rw [Function.update_of_ne hid]
        simp only [hiff]

/-- The nodes that are left have the entries that are left. -/
theorem of_take (read : Node → Option α) (nodes : Array Node) (kept : Nat) :
    of read (nodes.take kept) = (of read nodes).dropLast kept (nodes.size - kept) := by
  funext id
  rw [dropLast_apply, of, of, Array.take_eq_extract, Array.getElem?_extract]
  by_cases hid : id.raw < kept
  · have hkept : ¬ (kept ≤ id.raw ∧ id.raw < kept + (nodes.size - kept)) := by omega
    rw [if_neg hkept]
    split
    · rw [Nat.zero_add]
    · next hlate => rw [Array.getElem?_eq_none (by omega)]
  · rw [if_neg (by omega)]
    split
    · rfl
    · next hlate => rw [Array.getElem?_eq_none (by omega)]

end Side

section Columns

variable {β : Type} {read : Node → β} {nodes other : Array Node} {old new : Node} {i : Nat}

/-- A node of which the same is read leaves a column. -/
theorem map_set_of_eq (here : nodes[i]? = some old) (same : read new = read old) :
    (nodes.setIfInBounds i new).map read = nodes.map read := by
  obtain ⟨hlt, rfl⟩ := Array.getElem?_eq_some_iff.1 here
  refine Array.ext_getElem? fun j => ?_
  rw [Array.getElem?_map, Array.getElem?_map, Array.getElem?_setIfInBounds]
  split
  · next hj =>
      subst hj
      rw [here, Option.map_some, Option.map_some, same]
  · rfl

/-- So do nodes that are changed where nothing is read. -/
theorem map_congr_of_changed {change : Nat → Node → Node}
    (changed : ∀ i, other[i]? = nodes[i]?.map (change i))
    (same : ∀ i node, read (change i node) = read node) : other.map read = nodes.map read := by
  refine Array.ext_getElem? fun i => ?_
  rw [Array.getElem?_map, Array.getElem?_map, changed]
  cases nodes[i]? with
  | none => rfl
  | some node => exact congrArg some (same i node)

end Columns

namespace Node

/-- The owner of a node as a number. -/
def parentId (n : Node) : NodeId := NodeId.ofOption n.parent

def marks (n : Node) : Marks := ⟨n.parenthesized, n.isDerived⟩

/-- The errors of a node, if there are any. -/
def errors? (n : Node) : Option (List NodeError) := if n.errors = [] then none else some n.errors

end Node

/-- **A forest in columns.** -/
def Forest.columns (f : Forest) : Columns where
  shapes := f.nodes.map Node.shape
  spans := f.nodes.map Node.span
  parents := f.nodes.map Node.parentId
  types := f.nodes.map Node.type
  marks := f.nodes.map Node.marks
  lists := f.lists
  errors := Side.of Node.errors? f.nodes
  donors := Side.of Node.donor f.nodes
  functions := Side.of Node.info f.nodes
  nativeTypes := Side.of Node.nativeType f.nodes
  operations := Side.of Node.operation f.nodes

namespace Forest

variable {f g : Forest} {id : NodeId} {node old new : Node} {shape : Shape} {span : Span}

/-! ### Reading -/

/-- The numbers of the nodes and of their owners name something. -/
structure Numbered (f : Forest) : Prop where
  room : f.size ≤ maxWord
  owner : ∀ {child owner}, f.parent? child = some owner → owner ≠ NodeId.absent

theorem toOption_ofOption {slot : Option NodeId} (h : ∀ id, slot = some id → id ≠ NodeId.absent) :
    (NodeId.ofOption slot).toOption = slot := by
  cases slot with
  | none => rfl
  | some id =>
      have hid := h id rfl
      simp [NodeId.ofOption, NodeId.toOption, NodeId.isPresent, hid]

theorem Numbered.toOption_parentId (numbered : f.Numbered) (here : f.node? id = some node) :
    node.parentId.toOption = node.parent :=
  toOption_ofOption fun _ h => numbered.owner (parent?_eq_some_iff.2 ⟨node, here, h⟩)

theorem getElem?_column {β : Type} {read : Node → β} (here : f.node? id = some node) :
    (f.nodes.map read)[id.raw]? = some (read node) := by
  have here : f.nodes[id.raw]? = some node := here
  rw [Array.getElem?_map, here, Option.map_some]

theorem exists_node_of_column {β : Type} {read : Node → β} {entry : β}
    (h : (f.nodes.map read)[id.raw]? = some entry) :
    ∃ node, f.node? id = some node ∧ read node = entry := by
  rw [Array.getElem?_map] at h
  exact Option.map_eq_some_iff.1 h

theorem getElem?_shapes_columns (f : Forest) (id : NodeId) :
    f.columns.shapes[id.raw]? = (f.node? id).map Node.shape := Array.getElem?_map

theorem exists_node_of_side {β : Type} {read : Node → Option β} {entry : β}
    (h : Side.of read f.nodes id = some entry) :
    ∃ node, f.node? id = some node ∧ read node = some entry :=
  Option.bind_eq_some_iff.1 h

theorem columns_empty : empty.columns = Columns.empty := by
  simp only [columns, empty, Columns.empty, Array.map_empty, Side.of_empty]

theorem size_columns (f : Forest) : f.columns.size = f.size := Array.size_map ..

theorem errors_of_errors? (n : Node) : n.errors?.getD [] = n.errors := by
  unfold Node.errors?
  split
  · next h => rw [h]; rfl
  · rfl

/-- **The columns of a forest describe it.** -/
theorem forest_columns (numbered : f.Numbered) : f.columns.forest = f := by
  refine ext_node? (fun id => ?_) rfl
  change (f.columns.shapes.mapIdx f.columns.node)[id.raw]? = f.nodes[id.raw]?
  rw [Array.getElem?_mapIdx]
  change ((f.nodes.map Node.shape)[id.raw]?).map _ = _
  rw [Array.getElem?_map]
  cases hnode : f.nodes[id.raw]? with
  | none => rfl
  | some node =>
      have hparent := numbered.toOption_parentId hnode
      have hentry : ∀ {β : Type} (read : Node → Option β),
          Side.of read f.nodes ⟨id.raw⟩ = read node := fun read => Side.of_of_node hnode
      simp only [Option.map_some, Columns.node, Columns.parent?, columns,
        Array.getD_eq_getD_getElem?, Array.getElem?_map, hnode, Option.getD_some, Option.bind_some,
        hentry, hparent, errors_of_errors?, Node.marks]

theorem Numbered.parent?_columns (numbered : f.Numbered) (id : NodeId) :
    f.columns.parent? id = f.parent? id := by
  change ((f.nodes.map Node.parentId)[id.raw]?).bind _ = _
  cases here : f.node? id with
  | none =>
      have missing : f.nodes[id.raw]? = none := here
      rw [Array.getElem?_map, missing, parent?, here]
      rfl
  | some node =>
      rw [getElem?_column here, parent?_of_node? here]
      exact numbered.toOption_parentId here

theorem children_columns (f : Forest) (id : NodeId) : f.columns.children id = f.childList id := by
  rw [Columns.children, getElem?_shapes_columns, Option.map_map]
  rfl

/-! ### Numbers -/

namespace Numbered

theorem empty : Forest.empty.Numbered where
  room := Nat.zero_le _
  owner h := by
    rw [parent?_of_le (Nat.zero_le _)] at h
    cases h

theorem ne_absent (numbered : f.Numbered) (h : id.raw < f.size) : id ≠ NodeId.absent := by
  rintro rfl
  exact absurd (Nat.lt_of_lt_of_le h numbered.room) (Nat.lt_irrefl _)

theorem contains_columns (numbered : f.Numbered) (id : NodeId) :
    f.columns.contains id = f.contains id := by
  rw [Bool.eq_iff_iff, contains_iff, Columns.contains, size_columns, Bool.and_eq_true,
    decide_eq_true_iff]
  exact and_iff_right_of_imp fun h => decide_eq_true (numbered.ne_absent h)

theorem congr (numbered : f.Numbered) (size : g.size ≤ f.size)
    (parents : ∀ {child owner}, g.parent? child = some owner → f.parent? child = some owner) :
    g.Numbered :=
  ⟨Nat.le_trans size numbered.room, fun h => numbered.owner (parents h)⟩

theorem keep (numbered : f.Numbered) (ids : List NodeId) : (f.keep ids).Numbered :=
  numbered.congr (Nat.le_refl _) fun h => h

theorem add (numbered : f.Numbered) (admits : f.Admits shape span) (donor : Option NodeId) :
    (f.add shape span donor).Numbered where
  room := by
    rw [size_add]
    exact admits.room
  owner {child owner} h := by
    by_cases hnew : child.raw = f.size
    · obtain rfl := NodeId.eq_of_raw hnew
      rw [parent?_add_self admits] at h
      cases h
    by_cases hmem : child ∈ shape.children f.lists
    · rw [parent?_add_of_mem admits hmem] at h
      rintro rfl
      have hsize : f.size = maxWord := congrArg NodeId.raw (Option.some.inj h)
      exact Nat.ne_of_lt admits.room hsize
    · rw [parent?_add_of_notMem hnew hmem] at h
      exact numbered.owner h

theorem replace (numbered : f.Numbered) (here : f.node? id = some old)
    (parent : new.parent = old.parent) : (f.replace id new).Numbered := by
  refine numbered.congr (Nat.le_of_eq (size_replace ..)) fun {child owner} h => ?_
  by_cases hc : child = id
  · subst hc
    rw [parent?_of_node? (node?_replace_self here), parent] at h
    rwa [parent?_of_node? here]
  · rwa [parent?, node?_replace_of_ne hc] at h

theorem reshape (numbered : f.Numbered) (here : f.node? id = some node) :
    (f.reshape id node shape).Numbered where
  room := by
    rw [size_reshape]
    exact numbered.room
  owner {child owner} h := by
    obtain ⟨later, hlater, hparent⟩ := parent?_eq_some_iff.1 h
    rw [node?_reshape] at hlater
    obtain ⟨old, hold, rfl⟩ := Option.map_eq_some_iff.1 hlater
    rw [parent_reshaped] at hparent
    unfold adopted released at hparent
    split at hparent
    · obtain rfl := Option.some.inj hparent
      exact numbered.ne_absent (lt_size_of_node? here)
    · split at hparent
      · cases hparent
      · exact numbered.owner (parent?_eq_some_iff.2 ⟨old, hold, hparent⟩)

theorem rollback (numbered : f.Numbered) (m : Mark) : (f.rollback m).Numbered := by
  refine numbered.congr (by rw [size_rollback]; exact Nat.min_le_right _ _)
    fun {child owner} h => ?_
  obtain ⟨last, hlast, hparent⟩ := parent?_eq_some_iff.1 h
  obtain ⟨old, parent, hold, rfl, rfl | rfl⟩ := exists_of_node?_rollback hlast
  · exact parent?_eq_some_iff.2 ⟨old, hold, hparent⟩
  · cases hparent

end Numbered

/-! ### Owners in a column -/

section Owners

variable {α β : Type} {nodes : Array Node} {owner : NodeId} {children : List NodeId}

/-- Another value of one node is another entry of a column. -/
theorem map_modify (nodes : Array Node) (i : Nat) (change : Node → Node) (read : Node → β)
    (entry : β → β) (same : ∀ node, read (change node) = entry (read node)) :
    (nodes.modify i change).map read = (nodes.map read).modify i entry := by
  refine Array.ext_getElem? fun j => ?_
  rw [Array.getElem?_map, Array.getElem?_modify, Array.getElem?_modify, Array.getElem?_map]
  cases nodes[j]? with
  | none => split <;> rfl
  | some node =>
      split
      · exact congrArg some (same node)
      · rfl

/-- An entry that is replaced is modified. -/
theorem modify_const (column : Array β) (i : Nat) (entry : β) :
    column.modify i (fun _ => entry) = column.setIfInBounds i entry := by
  refine Array.ext_getElem? fun j => ?_
  rw [Array.getElem?_modify, Array.getElem?_setIfInBounds]
  split
  · next hj =>
      subst hj
      by_cases hi : i < column.size
      · rw [if_pos hi, Array.getElem?_eq_getElem hi, Option.map_some]
      · rw [if_neg hi, Array.getElem?_eq_none (Nat.not_lt.1 hi), Option.map_none]
  · rfl

/-- So is one that is replaced if it has some value. -/
theorem modify_if [DecidableEq β] (column : Array β) (i : Nat) (old new : β) :
    column.modify i (fun entry => if entry = old then new else entry)
      = if column[i]? = some old then column.setIfInBounds i new else column := by
  refine Array.ext_getElem? fun j => ?_
  rw [Array.getElem?_modify]
  by_cases hj : i = j
  · subst hj
    rw [if_pos rfl]
    cases hi : column[i]? with
    | none => rw [if_neg (fun h => nomatch h), hi, Option.map_none]
    | some entry =>
        obtain ⟨hlt, -⟩ := Array.getElem?_eq_some_iff.1 hi
        by_cases he : entry = old
        · rw [he, if_pos rfl, Array.getElem?_setIfInBounds_self_of_lt hlt, Option.map_some,
            if_pos rfl]
        · rw [if_neg (fun h => he (Option.some.inj h)), hi, Option.map_some, if_neg he]
  · rw [if_neg hj]
    split
    · rw [Array.getElem?_setIfInBounds_ne hj]
    · rfl

/-- **The column of owners is adopted alike.** -/
theorem parents_adopt (owner : NodeId) (nodes : Array Node) (children : List NodeId) :
    (adopt owner nodes children).map Node.parentId
      = Columns.adopt owner (nodes.map Node.parentId) children := by
  unfold adopt Columns.adopt
  induction children generalizing nodes with
  | nil => rfl
  | cons child rest ih =>
      rw [List.foldl_cons, List.foldl_cons, ih, ← modify_const]
      rw [map_modify nodes child.raw _ Node.parentId (fun _ => owner) fun _ => rfl]

/-- **And released alike.** -/
theorem parents_release (owner : NodeId) (nodes : Array Node) (children : List NodeId) :
    (release owner nodes children).map Node.parentId
      = Columns.release owner (nodes.map Node.parentId) children := by
  unfold release Columns.release
  induction children generalizing nodes with
  | nil => rfl
  | cons child rest ih =>
      rw [List.foldl_cons, List.foldl_cons, ih, ← modify_if]
      rw [map_modify nodes child.raw _ Node.parentId
        (fun entry => if entry = owner then NodeId.absent else entry) fun node => ?_]
      unfold Node.parentId
      cases hparent : node.parent with
      | none =>
          -- no owner is written as the number that names none, whatever that number owned
          simp only [hparent, reduceCtorEq, if_false, NodeId.ofOption, Option.getD_none]
          exact (ite_self _).symm
      | some above =>
          by_cases habove : above = owner
          · simp [habove, NodeId.ofOption]
          · simp [hparent, habove, NodeId.ofOption]

/-- Nodes of which only the owners have changed differ in the column of owners only. -/
theorem columns_of_owners {other : Array Node} {change : Nat → Node → Node} (lists : Array NodeId)
    (changed : ∀ i, other[i]? = nodes[i]?.map (change i))
    (owners : ∀ i node, ∃ parent, change i node = { node with parent := parent }) :
    (Forest.mk other lists).columns
      = { (Forest.mk nodes lists).columns with parents := other.map Node.parentId } := by
  have same : ∀ {γ : Type} {read : Node → γ},
      (∀ (node : Node) (parent : Option NodeId), read { node with parent := parent } = read node) →
      ∀ i node, read (change i node) = read node := fun ignores i node => by
    obtain ⟨parent, hparent⟩ := owners i node
    rw [hparent, ignores]
  exact Columns.ext (map_congr_of_changed changed (same fun _ _ => rfl))
    (map_congr_of_changed changed (same fun _ _ => rfl)) rfl
    (map_congr_of_changed changed (same fun _ _ => rfl))
    (map_congr_of_changed changed (same fun _ _ => rfl)) rfl
    (Side.of_congr changed (same fun _ _ => rfl)) (Side.of_congr changed (same fun _ _ => rfl))
    (Side.of_congr changed (same fun _ _ => rfl)) (Side.of_congr changed (same fun _ _ => rfl))
    (Side.of_congr changed (same fun _ _ => rfl))

theorem columns_adopt (owner : NodeId) (nodes : Array Node) (lists : Array NodeId)
    (children : List NodeId) : (Forest.mk (adopt owner nodes children) lists).columns
      = { (Forest.mk nodes lists).columns with
          parents := Columns.adopt owner (nodes.map Node.parentId) children } := by
  rw [← parents_adopt]
  refine columns_of_owners lists (getElem?_adopt owner nodes children) fun i node => ?_
  unfold adopted
  split <;> exact ⟨_, rfl⟩

theorem columns_release (owner : NodeId) (nodes : Array Node) (lists : Array NodeId)
    (children : List NodeId) : (Forest.mk (release owner nodes children) lists).columns
      = { (Forest.mk nodes lists).columns with
          parents := Columns.release owner (nodes.map Node.parentId) children } := by
  rw [← parents_release]
  refine columns_of_owners lists (getElem?_release owner nodes children) fun i node => ?_
  unfold released
  split <;> exact ⟨_, rfl⟩

end Owners

/-! ### What changes write -/

/-- A node more, in columns. -/
theorem columns_add (f : Forest) (shape : Shape) (span : Span) (donor : Option NodeId) :
    (f.add shape span donor).columns = { f.columns.add shape span donor.isSome with
      donors := Function.update f.columns.donors ⟨f.size⟩ donor } := by
  obtain ⟨nodes, lists⟩ := f
  have hsize : (Forest.mk nodes lists).columns.size = nodes.size := size_columns _
  simp only [add, columns_adopt]
  refine Columns.ext Array.map_push Array.map_push ?_ Array.map_push Array.map_push rfl ?_ ?_ ?_ ?_
    ?_
  · simp only [Columns.add, hsize, Array.map_push]
    rfl
  · exact Side.of_push_none rfl
  · exact Side.of_push ..
  · change Side.of _ _ = if _ then _ else _
    rw [Side.of_push, hsize]
    split
    · next h => simp only [Node.fresh, h, if_true]; rfl
    · next h =>
        simp only [Node.fresh, h, Bool.false_eq_true, if_false]
        exact Function.update_eq_self_iff.2 (Side.of_of_le (Nat.le_refl _)).symm
  · exact Side.of_push_none rfl
  · exact Side.of_push_none rfl

/-- A node from the source. -/
theorem columns_add_none (f : Forest) (shape : Shape) (span : Span) :
    (f.add shape span none).columns = f.columns.add shape span false := by
  have hnone : Function.update f.columns.donors ⟨f.size⟩ none = f.columns.donors :=
    Function.update_eq_self_iff.2 (Side.of_of_le (Nat.le_refl _)).symm
  rw [columns_add, hnone]
  rfl

theorem columns_add_some (f : Forest) (shape : Shape) (span : Span) (donor : NodeId) :
    (f.add shape span (some donor)).columns = { f.columns.add shape span true with
      donors := f.columns.donors.put ⟨f.size⟩ donor } :=
  columns_add f shape span (some donor)

/-! ### Decorations -/

section Decorations

variable (here : f.node? id = some old)
include here

theorem columns_set_parenthesized (mark : Bool) :
    (f.replace id { old with parenthesized := mark }).columns = { f.columns with
      marks := f.columns.marks.setIfInBounds id.raw ⟨mark, old.isDerived⟩ } :=
  Columns.ext (map_set_of_eq here rfl) (map_set_of_eq here rfl) (map_set_of_eq here rfl)
    (map_set_of_eq here rfl) Array.map_setIfInBounds rfl (Side.of_set_of_eq here rfl)
    (Side.of_set_of_eq here rfl) (Side.of_set_of_eq here rfl) (Side.of_set_of_eq here rfl)
    (Side.of_set_of_eq here rfl)

theorem columns_set_type (type : TypeId) :
    (f.replace id { old with type := type }).columns = { f.columns with
      types := f.columns.types.setIfInBounds id.raw type } :=
  Columns.ext (map_set_of_eq here rfl) (map_set_of_eq here rfl) (map_set_of_eq here rfl)
    Array.map_setIfInBounds (map_set_of_eq here rfl) rfl (Side.of_set_of_eq here rfl)
    (Side.of_set_of_eq here rfl) (Side.of_set_of_eq here rfl) (Side.of_set_of_eq here rfl)
    (Side.of_set_of_eq here rfl)

theorem columns_set_shape (shape : Shape) :
    (f.replace id { old with shape := shape }).columns = { f.columns with
      shapes := f.columns.shapes.setIfInBounds id.raw shape } :=
  Columns.ext Array.map_setIfInBounds (map_set_of_eq here rfl) (map_set_of_eq here rfl)
    (map_set_of_eq here rfl) (map_set_of_eq here rfl) rfl (Side.of_set_of_eq here rfl)
    (Side.of_set_of_eq here rfl) (Side.of_set_of_eq here rfl) (Side.of_set_of_eq here rfl)
    (Side.of_set_of_eq here rfl)

theorem columns_set_errors {errors : List NodeError} (found : errors ≠ []) :
    (f.replace id { old with errors := errors }).columns = { f.columns with
      errors := f.columns.errors.put id errors } :=
  Columns.ext (map_set_of_eq here rfl) (map_set_of_eq here rfl) (map_set_of_eq here rfl)
    (map_set_of_eq here rfl) (map_set_of_eq here rfl) rfl (Side.of_set_of_some here (if_neg found))
    (Side.of_set_of_eq here rfl) (Side.of_set_of_eq here rfl) (Side.of_set_of_eq here rfl)
    (Side.of_set_of_eq here rfl)

theorem columns_set_info (info : FunctionInfo) :
    (f.replace id { old with info := some info }).columns = { f.columns with
      functions := f.columns.functions.put id info } :=
  Columns.ext (map_set_of_eq here rfl) (map_set_of_eq here rfl) (map_set_of_eq here rfl)
    (map_set_of_eq here rfl) (map_set_of_eq here rfl) rfl (Side.of_set_of_eq here rfl)
    (Side.of_set_of_eq here rfl) (Side.of_set_of_some here rfl) (Side.of_set_of_eq here rfl)
    (Side.of_set_of_eq here rfl)

theorem columns_set_nativeType (type : TypeId) :
    (f.replace id { old with nativeType := some type }).columns = { f.columns with
      nativeTypes := f.columns.nativeTypes.put id type } :=
  Columns.ext (map_set_of_eq here rfl) (map_set_of_eq here rfl) (map_set_of_eq here rfl)
    (map_set_of_eq here rfl) (map_set_of_eq here rfl) rfl (Side.of_set_of_eq here rfl)
    (Side.of_set_of_eq here rfl) (Side.of_set_of_eq here rfl) (Side.of_set_of_some here rfl)
    (Side.of_set_of_eq here rfl)

theorem columns_set_operation (operation : OperationId) :
    (f.replace id { old with operation := some operation }).columns = { f.columns with
      operations := f.columns.operations.put id operation } :=
  Columns.ext (map_set_of_eq here rfl) (map_set_of_eq here rfl) (map_set_of_eq here rfl)
    (map_set_of_eq here rfl) (map_set_of_eq here rfl) rfl (Side.of_set_of_eq here rfl)
    (Side.of_set_of_eq here rfl) (Side.of_set_of_eq here rfl) (Side.of_set_of_eq here rfl)
    (Side.of_set_of_some here rfl)

end Decorations

/-! ### Exchanging contents -/

/-- Another shape, in columns. -/
theorem columns_modify_shape (nodes : Array Node) (lists : Array NodeId) (i : Nat)
    (shape : Shape) :
    (Forest.mk (nodes.modify i fun node => { node with shape := shape }) lists).columns
      = { (Forest.mk nodes lists).columns with
          shapes := (nodes.map Node.shape).setIfInBounds i shape } := by
  have changed : ∀ j, (nodes.modify i fun node => { node with shape := shape })[j]?
      = nodes[j]?.map fun node => if i = j then { node with shape := shape } else node := by
    intro j
    rw [Array.getElem?_modify]
    split
    · rfl
    · exact Option.map_id'.symm
  have same : ∀ {γ : Type} {read : Node → γ},
      (∀ (node : Node) (shape : Shape), read { node with shape := shape } = read node) →
      ∀ j node, read (if i = j then { node with shape := shape } else node) = read node :=
    fun ignores j node => by
      split
      · exact ignores node shape
      · rfl
  refine Columns.ext ?_ (map_congr_of_changed changed (same fun _ _ => rfl))
    (map_congr_of_changed changed (same fun _ _ => rfl))
    (map_congr_of_changed changed (same fun _ _ => rfl))
    (map_congr_of_changed changed (same fun _ _ => rfl)) rfl
    (Side.of_congr changed (same fun _ _ => rfl)) (Side.of_congr changed (same fun _ _ => rfl))
    (Side.of_congr changed (same fun _ _ => rfl)) (Side.of_congr changed (same fun _ _ => rfl))
    (Side.of_congr changed (same fun _ _ => rfl))
  rw [← modify_const]
  exact map_modify nodes i (fun node => { node with shape := shape }) Node.shape (fun _ => shape)
    fun _ => rfl

/-- Contents that are exchanged, in columns. -/
theorem columns_reshape (f : Forest) (id : NodeId) (node : Node) (shape : Shape) :
    (f.reshape id node shape).columns = { f.columns with
      parents := Columns.adopt id (Columns.release id f.columns.parents (f.childrenOf node))
        (shape.children f.lists)
      shapes := f.columns.shapes.setIfInBounds id.raw shape } := by
  obtain ⟨nodes, lists⟩ := f
  rw [reshape, columns_modify_shape, columns_adopt, columns_release]
  have hshapes := congrArg Columns.shapes (columns_adopt id (release id nodes
    ((Forest.mk nodes lists).childrenOf node)) lists (shape.children lists))
  have hreleased := congrArg Columns.shapes
    (columns_release id nodes lists ((Forest.mk nodes lists).childrenOf node))
  refine Columns.ext ?_ rfl ?_ rfl rfl rfl rfl rfl rfl rfl rfl
  · exact congrArg (Array.setIfInBounds · id.raw shape) (hshapes.trans hreleased)
  · exact congrArg (Columns.adopt id · _) (parents_release ..)

/-! ### Dropping nodes -/

/-- The last nodes give up their children, in columns. -/
theorem columns_releaseLast (store lists : Array NodeId) (kept extra : Nat) (nodes : Array Node) :
    (Forest.mk (releaseLast store kept extra nodes) lists).columns
      = { (Forest.mk nodes lists).columns with
          parents := (releaseLast store kept extra nodes).map Node.parentId } := by
  induction extra generalizing nodes with
  | zero => rfl
  | succ extra ih =>
      rw [releaseLast]
      split
      · exact ih nodes
      · rw [ih, columns_release]

/-- Forgetting goes through the side tables one by one. -/
theorem forgetLast_eq (kept extra : Nat) (c : Columns) :
    Columns.forgetLast kept extra c = { c with
      parents := (Columns.forgetLast kept extra c).parents
      errors := c.errors.dropLast kept extra
      donors := c.donors.dropLast kept extra
      functions := c.functions.dropLast kept extra
      nativeTypes := c.nativeTypes.dropLast kept extra
      operations := c.operations.dropLast kept extra } := by
  induction extra generalizing c with
  | zero => rfl
  | succ extra ih =>
      rw [Columns.forgetLast, ih]
      rfl

/-- It releases what the last nodes list. -/
theorem parents_forgetLast (kept extra : Nat) {c : Columns} {nodes : Array Node}
    (shapes : c.shapes = nodes.map Node.shape) (parents : c.parents = nodes.map Node.parentId) :
    (Columns.forgetLast kept extra c).parents
      = (releaseLast c.lists kept extra nodes).map Node.parentId := by
  induction extra generalizing c nodes with
  | zero => exact parents
  | succ extra ih =>
      rw [Columns.forgetLast, releaseLast]
      split
      · next hnone =>
          refine ih (c := c.forget ⟨kept + extra⟩) shapes ?_
          have hchildren : c.children ⟨kept + extra⟩ = [] := by
            rw [Columns.children, shapes, Array.getElem?_map, hnone]
            rfl
          rw [Columns.forget, hchildren]
          exact parents
      · next last hlast =>
          have hchildren : c.children ⟨kept + extra⟩ = last.shape.children c.lists := by
            rw [Columns.children, shapes, Array.getElem?_map, hlast]
            rfl
          refine ih (c := c.forget ⟨kept + extra⟩) (shapes.trans ?_) ?_
          · exact (congrArg Columns.shapes (columns_release _ nodes c.lists _)).symm
          · rw [Columns.forget, hchildren, parents_release, parents]

/-- The first nodes, in columns. -/
theorem columns_take (nodes : Array Node) (lists : Array NodeId) (m : Mark) (c : Columns)
    (described : c = (Forest.mk nodes lists).columns) :
    (Forest.mk (nodes.take m.nodes) (lists.take m.lists)).columns = { c.truncate m with
      errors := c.errors.dropLast m.nodes (nodes.size - m.nodes)
      donors := c.donors.dropLast m.nodes (nodes.size - m.nodes)
      functions := c.functions.dropLast m.nodes (nodes.size - m.nodes)
      nativeTypes := c.nativeTypes.dropLast m.nodes (nodes.size - m.nodes)
      operations := c.operations.dropLast m.nodes (nodes.size - m.nodes) } := by
  subst described
  simp only [columns, Side.of_take, Columns.truncate, Array.take_eq_extract, Array.map_extract]

/-- **Falling back to a mark, in columns.** -/
theorem columns_rollback (f : Forest) (m : Mark) :
    (f.rollback m).columns = f.columns.rollback m := by
  obtain ⟨nodes, lists⟩ := f
  have released := columns_releaseLast lists lists m.nodes (nodes.size - m.nodes) nodes
  have hparents : (Columns.forgetLast m.nodes (nodes.size - m.nodes)
      (Forest.mk nodes lists).columns).parents
        = (releaseLast lists m.nodes (nodes.size - m.nodes) nodes).map Node.parentId :=
    parents_forgetLast m.nodes (nodes.size - m.nodes) rfl rfl
  rw [Columns.rollback, forgetLast_eq, size_columns]
  change (Forest.mk ((releaseLast lists m.nodes (nodes.size - m.nodes) nodes).take m.nodes)
    (lists.take m.lists)).columns = _
  rw [columns_take _ _ m _ released.symm, size_releaseLast, ← hparents]
  rfl

end Forest

end SyntaxForest
