/-
**Forests in columns.**

A node of a forest is one record here, so what is recorded of a node cannot get lost, and nothing is
recorded of a number without a node.  A forest can also be kept in columns: five arrays with one
entry for each node, the store, and side tables for what only some nodes have.  Then a node is made
by writing in many places, and what must be forgotten has to be taken out of each side table, or it
is found again when its number is given out a second time.

This module does everything that may be done to a forest on columns, each operation on the columns
and side tables that it is about.  Rules are looked at in the forest that the columns describe.
That the two do the same is the subject of `Mirrored`.

Main definitions:

* `Side`, `Columns` — a side table, and a forest in columns;
* `Columns.forest` — the forest that columns describe;
* `Columns.insert`, `Columns.setType`, `Columns.addError`, `Columns.allocateLocal`, … — nodes and
  their decorations;
* `Columns.replaceShape`, `Columns.rollback`, `Columns.regroupDocument` — regrouping;
* `Columns.runAll` — doing changes.
-/

import SyntaxForest.Proofs.Forest.History
import Mathlib.Logic.Function.Basic

set_option relaxedAutoImplicit false
set_option autoImplicit false

namespace SyntaxForest

/-- A side table: what is recorded of a few numbers. -/
abbrev Side (α : Type) := NodeId → Option α

namespace Side

variable {α : Type}

def empty : Side α := fun _ => none

/-- A side table with another entry for a number. -/
def put (table : Side α) (id : NodeId) (entry : α) : Side α :=
  Function.update table id (some entry)

/-- A side table without the entry for a number. -/
def drop (table : Side α) (id : NodeId) : Side α := Function.update table id none

/-- A side table without the entries for the `extra` last of `kept + extra` numbers. -/
def dropLast (kept : Nat) : (extra : Nat) → Side α → Side α
  | 0, table => table
  | extra + 1, table => dropLast kept extra (table.drop ⟨kept + extra⟩)

end Side

structure Marks where
  parenthesized : Bool
  /-- It is not in the source. -/
  derived : Bool
  deriving DecidableEq, Inhabited

/-- A forest in columns and side tables. -/
@[ext]
structure Columns where
  shapes : Array Shape
  spans : Array Span
  /-- Their owners; the number that names no node stands for none. -/
  parents : Array NodeId
  types : Array TypeId
  marks : Array Marks
  lists : Array NodeId
  errors : Side (List NodeError)
  donors : Side NodeId
  functions : Side FunctionInfo
  nativeTypes : Side TypeId
  operations : Side OperationId

namespace Columns

open Forest (nextPlace Mark Fate)

def empty : Columns where
  shapes := #[]
  spans := #[]
  parents := #[]
  types := #[]
  marks := #[]
  lists := #[]
  errors := Side.empty
  donors := Side.empty
  functions := Side.empty
  nativeTypes := Side.empty
  operations := Side.empty

/-! ### Reading -/

def size (c : Columns) : Nat := c.shapes.size

def contains (c : Columns) (id : NodeId) : Bool := id.isPresent && id.raw < c.size

/-- The entry of a column for a number, or the refusal of a number without one. -/
def entry {α : Type} (column : Array α) (id : NodeId) : Except Refusal α :=
  match column[id.raw]? with
  | some entry => .ok entry
  | none => .error (.unknownNode id)

def parent? (c : Columns) (id : NodeId) : Option NodeId := c.parents[id.raw]?.bind NodeId.toOption

def children (c : Columns) (id : NodeId) : List NodeId :=
  (c.shapes[id.raw]?.map (Shape.children c.lists)).getD []

/-- The node of a shape that the other columns and the side tables describe at a place. -/
def node (c : Columns) (place : Nat) (shape : Shape) : Node where
  shape := shape
  span := c.spans.getD place default
  parent := c.parent? ⟨place⟩
  type := c.types.getD place TypeId.unresolved
  parenthesized := (c.marks.getD place default).parenthesized
  donor := c.donors ⟨place⟩
  errors := (c.errors ⟨place⟩).getD []
  info := c.functions ⟨place⟩
  nativeType := c.nativeTypes ⟨place⟩
  operation := c.operations ⟨place⟩

/-- **The forest that columns describe.** -/
def forest (c : Columns) : Forest := ⟨c.shapes.mapIdx c.node, c.lists⟩

/-! ### Making nodes -/

/-- A change of columns that may be refused; the columns after a refusal are part of the answer. -/
abbrev Action (α : Type) := EStateM Refusal Columns α

/-- Works out other columns, which take the place of the former ones unless it is refused. -/
def update {α : Type} (work : Columns → Except Refusal (α × Columns)) : Action α := fun c =>
  match work c with
  | .error refusal => .error refusal c
  | .ok (answer, d) => .ok answer d

/-- A column of owners in which the listed nodes are owned by `owner`. -/
def adopt (owner : NodeId) (parents : Array NodeId) (children : List NodeId) : Array NodeId :=
  children.foldl (fun parents child => parents.setIfInBounds child.raw owner) parents

/-- The columns with a node more; it owns its children. -/
def add (c : Columns) (shape : Shape) (span : Span) (derived : Bool) : Columns :=
  let id : NodeId := ⟨c.size⟩
  { c with
    shapes := c.shapes.push shape
    spans := c.spans.push span
    parents := adopt id (c.parents.push NodeId.absent) (shape.children c.lists)
    types := c.types.push TypeId.unresolved
    marks := c.marks.push ⟨false, derived⟩
    functions := if shape.tag.isFunction then c.functions.put id ⟨Name.empty, []⟩
      else c.functions }

def insert (shape : Shape) (span : Span) : Action NodeId := update fun c => do
  let id ← c.forest.checkNode shape span
  return (id, c.add shape span false)

def insertDerived (shape : Shape) (donor : NodeId) : Action NodeId := update fun c => do
  let span ← entry c.spans donor
  let id ← c.forest.checkNode shape span
  return (id, { c.add shape span true with donors := c.donors.put id donor })

/-- Keeps a sequence of node numbers; `what` names it in a refusal. -/
def storeList (ids : List NodeId) (what : String) : Action Segment := update fun c =>
  if ids.isEmpty then .ok (Segment.empty, c)
  else if Forest.maxListLength < ids.length then .error (.listTooLong what ids.length)
  else do
    let start ← nextPlace c.lists.size
    return (⟨start, ids.length⟩, { c with lists := c.lists ++ ids })

def specialize (base : NodeId) (closure : ClosureId) : Action NodeId :=
  insertDerived (.specialized base closure) base

def groupFunctions (name : Name) (members : List NodeId) : Action NodeId :=
  match members with
  | [] => throw (.emptyGroup name)
  | first :: _ => do
      let segment ← storeList members "overload members"
      insertDerived (.overloads name segment) first

/-! ### Decorating nodes -/

def setParenthesized (id : NodeId) : Action Unit := update fun c => do
  let marks ← entry c.marks id
  return ((), { c with
    marks := c.marks.setIfInBounds id.raw { marks with parenthesized := true } })

def setType (id : NodeId) (type : TypeId) : Action Unit := update fun c => do
  let current ← entry c.types id
  let type ← Node.once current type TypeId.unresolved id "resolved type"
  return ((), { c with types := c.types.setIfInBounds id.raw type })

def addError (id : NodeId) (error : NodeError) : Action Unit := update fun c =>
  if c.contains id then
    .ok ((), { c with errors := c.errors.put id ((c.errors id).getD [] ++ [error]) })
  else .error (.unknownNode id)

/-- A node is of a sort; `expected` names it in a refusal. -/
def expectTag (c : Columns) (id : NodeId) (tag : Tag) (expected : String) :
    Except Refusal Unit := do
  let shape ← entry c.shapes id
  if shape.tag = tag then .ok () else .error (.unexpectedTag id expected shape.tag)

def setNativeType (id : NodeId) (type : TypeId) : Action Unit := fun c =>
  match c.expectTag id .typeBody "TypeNode" with
  | .error refusal => .error refusal c
  | .ok () =>
      let current := (c.nativeTypes id).getD TypeId.unresolved
      -- the entry is made before anything is compared, so it is there after a refusal too
      match Node.once current type TypeId.unresolved id "native type" with
      | .error refusal => .error refusal { c with nativeTypes := c.nativeTypes.put id current }
      | .ok type => .ok () { c with nativeTypes := c.nativeTypes.put id type }

def setOperation (id : NodeId) (operation : OperationId) : Action Unit := update fun c => do
  c.expectTag id .binary "BinaryExpressionNode"
  match c.operations id with
  | some current =>
      if current = operation then
        .ok ((), { c with operations := c.operations.put id operation })
      else .error (.decorationConflict id "binary operation")
  | none => .ok ((), { c with operations := c.operations.put id operation })

def setLiteral (id : NodeId) (value : Literal) : Action Unit := update fun c => do
  let shape ← entry c.shapes id
  match shape with
  | .literal current =>
      if current.kind = value.kind then
        .ok ((), { c with shapes := c.shapes.setIfInBounds id.raw (.literal value) })
      else .error (.literalKindMismatch id value.kind current.kind)
  | shape => .error (.unexpectedTag id "literal" shape.tag)

def requireInfo (c : Columns) (id : NodeId) : Except Refusal FunctionInfo :=
  match c.functions id with
  | some info => .ok info
  | none => do
      let shape ← entry c.shapes id
      .error (.unexpectedTag id "function" shape.tag)

/-- Applies a rule with an answer to what is recorded of a function. -/
def decorateFunction {α : Type} (id : NodeId)
    (rule : FunctionInfo → Except Refusal (α × FunctionInfo)) : Action α := update fun c => do
  let info ← c.requireInfo id
  let (answer, info) ← rule info
  return (answer, { c with functions := c.functions.put id info })

def setIdentifier (id : NodeId) (name : Name) : Action Unit := decorateFunction id fun info => do
  let name ← Node.once info.identifier name Name.empty id "internal identifier"
  return ((), { info with identifier := name })

def allocateLocal (id : NodeId) (type : TypeId) : Action LocalSlot :=
  decorateFunction id fun info => do
    let place ← nextPlace info.locals.length
    return (⟨place⟩, { info with locals := info.locals ++ [type] })

def setLocalType (id : NodeId) (slot : LocalSlot) (type : TypeId) : Action Unit :=
  decorateFunction id fun info =>
    match info.locals[slot.raw]? with
    | none => .error (.unknownLocal id slot)
    | some current => do
        let type ← Node.once current type TypeId.unresolved id "local type"
        return ((), { info with locals := info.locals.set slot.raw type })

/-- Adds local variables without types to a function until it has `count`. -/
def reserveLocals (id : NodeId) (count : Nat) : Action Unit := decorateFunction id fun info =>
  let fresh := List.replicate (count - info.locals.length) TypeId.unresolved
  .ok ((), { info with locals := info.locals ++ fresh })

/-! ### Edits -/

/-- **Does an edit.** -/
def run : Edit → Action Edit.Answer
  | .insert shape span => Edit.Answer.node <$> insert shape span
  | .insertDerived shape donor => Edit.Answer.node <$> insertDerived shape donor
  | .storeList ids what => Edit.Answer.segment <$> storeList ids what
  | .setParenthesized node => (fun _ => Edit.Answer.done) <$> setParenthesized node
  | .setType node type => (fun _ => Edit.Answer.done) <$> setType node type
  | .addError node error => (fun _ => Edit.Answer.done) <$> addError node error
  | .setNativeType node type => (fun _ => Edit.Answer.done) <$> setNativeType node type
  | .setOperation node operation => (fun _ => Edit.Answer.done) <$> setOperation node operation
  | .setLiteral node value => (fun _ => Edit.Answer.done) <$> setLiteral node value
  | .setIdentifier function name => (fun _ => Edit.Answer.done) <$> setIdentifier function name
  | .allocateLocal function type => Edit.Answer.slot <$> allocateLocal function type
  | .setLocalType function slot type =>
      (fun _ => Edit.Answer.done) <$> setLocalType function slot type
  | .specialize base closure => Edit.Answer.node <$> specialize base closure
  | .groupFunctions name members => Edit.Answer.node <$> groupFunctions name members

/-! ### Exchanging the contents of a node -/

/-- A change of columns that may be refused or be at fault. -/
abbrev Attempt (α : Type) := EStateM Failure Columns α

/-- A change that may be refused, among changes that may also be at fault. -/
def Action.toAttempt {α : Type} (action : Action α) : Attempt α := fun c =>
  match action c with
  | .ok answer c => .ok answer c
  | .error refusal c => .error (.refused refusal) c

def ask {α : Type} (question : Forest → Except Failure α) : Attempt α := fun c =>
  match question c.forest with
  | .ok answer => .ok answer c
  | .error failure => .error failure c

def tagOf (id : NodeId) : Attempt Tag := fun c =>
  match c.shapes[id.raw]? with
  | some shape => .ok shape.tag c
  | none => .error (.fault (.unallocated id)) c

/-- A column of owners in which those of the listed nodes that `owner` owns are owned by none. -/
def release (owner : NodeId) (parents : Array NodeId) (children : List NodeId) : Array NodeId :=
  children.foldl
    (fun parents child =>
      if parents[child.raw]? = some owner then parents.setIfInBounds child.raw NodeId.absent
      else parents)
    parents

/-- Gives a node another shape: it gives up its children and owns those of the new shape. -/
def replaceShape (id : NodeId) (shape : Shape) : Attempt Unit := fun c =>
  match c.forest.node? id with
  | none => .error (.refused (.unknownNode id)) c
  | some node =>
      match c.forest.checkReplacement id node shape with
      | .error refusal => .error (.refused refusal) c
      | .ok () =>
          match (c.children id).find? fun child => !c.contains child with
          | some child => .error (.fault (.unallocated child)) c
          | none =>
              let parents := release id c.parents (c.children id)
              let parents := adopt id parents (shape.children c.lists)
              .ok () { c with
                parents := parents
                shapes := c.shapes.setIfInBounds id.raw shape }

/-! ### Dropping what was made since a mark -/

/-- Columns in which a number has given up its children and is forgotten by all side tables. -/
def forget (c : Columns) (id : NodeId) : Columns :=
  { c with
    parents := release id c.parents (c.children id)
    errors := c.errors.drop id
    donors := c.donors.drop id
    functions := c.functions.drop id
    nativeTypes := c.nativeTypes.drop id
    operations := c.operations.drop id }

/-- Columns in which the `extra` last of `kept + extra` nodes are forgotten, the last one first. -/
def forgetLast (kept : Nat) : (extra : Nat) → Columns → Columns
  | 0, c => c
  | extra + 1, c => forgetLast kept extra (c.forget ⟨kept + extra⟩)

/-- Columns cut back to a mark, the side tables left as they are. -/
def truncate (c : Columns) (m : Mark) : Columns :=
  { c with
    shapes := c.shapes.take m.nodes
    spans := c.spans.take m.nodes
    parents := c.parents.take m.nodes
    types := c.types.take m.nodes
    marks := c.marks.take m.nodes
    lists := c.lists.take m.lists }

/-- **The columns without what was made since a mark.** -/
def rollback (c : Columns) (m : Mark) : Columns :=
  (forgetLast m.nodes (c.size - m.nodes) c).truncate m

def mark (c : Columns) : Mark := ⟨c.size, c.lists.size⟩

/-! ### Regrouping -/

/-- The fate of a directive, its group made if it is the first member. -/
def regroupOne (members : Name → List NodeId) (directive : NodeId) : Attempt Fate := do
  if (← tagOf directive) ≠ .funDirective then return .kept directive
  let name ← ask fun f => (f.declaredName directive).mapError Failure.refused
  match members name with
  | [] => return .kept directive
  | [_] => return .kept directive
  | first :: second :: rest =>
      if first = directive then
        return .grouped (← (groupFunctions name (first :: second :: rest)).toAttempt)
      else return .merged

def regroupEach (members : Name → List NodeId) : List NodeId → Attempt (List Fate)
  | [] => return []
  | directive :: rest => do
      let fate ← regroupOne members directive
      let fates ← regroupEach members rest
      return fate :: fates

def regroup (root : NodeId) (directives : List NodeId) (members : Name → List NodeId) :
    Attempt (List NodeId) := do
  replaceShape root (.document Segment.empty)
  let fates ← regroupEach members directives
  let segment ← (storeList (Fate.directives fates) "directives").toAttempt
  replaceShape root (.document segment)
  return Fate.groups fates

/-- Rebuilds the directives of a document, or restores them if a step is refused. -/
def regroupOrRestore (root : NodeId) (former : Segment) (members : Name → List NodeId) :
    Attempt (List NodeId) := fun c =>
  match regroup root (former.entries c.lists) members c with
  | .error (.refused refusal) d =>
      match replaceShape root (.document former) (d.rollback c.mark) with
      | .ok () d => .error (.refused refusal) d
      | .error failure d => .error failure d
  | result => result

/-- **Groups the declarations of a document by name**; the answer lists the new groups. -/
def regroupDocument (root : NodeId) : Attempt (List NodeId) := do
  let former ← ask fun f => (f.directivesOf root).mapError Failure.refused
  let declared ← ask fun f => f.declaredNames (f.list former)
  if Forest.groupsNeeded declared then regroupOrRestore root former (Forest.membersOf declared)
  else return []

/-! ### Changes -/

def after (c : Columns) : Forest.Change → Columns
  | .edit edit => stateOf (run edit c)
  | .reserveLocals function count => stateOf (reserveLocals function count c)
  | .regroup root => stateOf (regroupDocument root c)

def runAll (c : Columns) (changes : List Forest.Change) : Columns := changes.foldl after c

end Columns

end SyntaxForest
