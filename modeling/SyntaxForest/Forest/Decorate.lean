/-
**Decorating nodes.**

Passes after the builder add to nodes what they find out.  A type, an operation, the unique name
of a function and the types of its locals are written once: writing the same value again changes
nothing, and writing another one is refused.  Errors are added and never taken away.  The value of
a literal may be replaced by one of its kind.

A decoration is a rule on one node, and `Forest.decorate` applies a rule to the node of a number.

Main definitions:

* `Node.once` — the rule of values that are written once;
* `Node.setType`, `Node.setNativeType`, `Node.setOperation`, `Node.setIdentifier`,
  `Node.setLocalType`, `Node.setLiteral`, `Node.allocateLocal`, … — the rules;
* `Forest.decorate` — a rule applied to a node of a forest.

Main results:

* `Forest.decorate_refused` — what is refused changes nothing.
-/

import SyntaxForest.Forest.Insert

set_option relaxedAutoImplicit false
set_option autoImplicit false

namespace SyntaxForest

namespace Node

/-- A value that is written once: it may replace the unset value and itself. -/
def once {α : Type} [DecidableEq α] (current value unset : α) (node : NodeId)
    (decoration : String) : Except Refusal α :=
  if current = unset ∨ current = value then .ok value
  else .error (.decorationConflict node decoration)

/-! ### Rules -/

def setParenthesized (n : Node) : Except Refusal Node :=
  .ok { n with parenthesized := true }

def setType (type : TypeId) (id : NodeId) (n : Node) : Except Refusal Node :=
  (once n.type type TypeId.unresolved id "resolved type").map fun type =>
    { n with type := type }

def addError (error : NodeError) (n : Node) : Except Refusal Node :=
  .ok { n with errors := n.errors ++ [error] }

def setNativeType (type : TypeId) (id : NodeId) (n : Node) : Except Refusal Node :=
  if n.shape.tag = .typeBody then
    (once (n.nativeType.getD TypeId.unresolved) type TypeId.unresolved id "native type").map
      fun type => { n with nativeType := some type }
  else .error (.unexpectedTag id "TypeNode" n.shape.tag)

def setOperation (operation : OperationId) (id : NodeId) (n : Node) : Except Refusal Node :=
  if n.shape.tag = .binary then
    (once n.operation (some operation) none id "binary operation").map
      fun operation => { n with operation := operation }
  else .error (.unexpectedTag id "BinaryExpressionNode" n.shape.tag)

def setLiteral (value : Literal) (id : NodeId) (n : Node) : Except Refusal Node :=
  match n.shape with
  | .literal current =>
      if current.kind = value.kind then .ok { n with shape := .literal value }
      else .error (.literalKindMismatch id value.kind current.kind)
  | shape => .error (.unexpectedTag id "literal" shape.tag)

def requireInfo (id : NodeId) (n : Node) : Except Refusal FunctionInfo :=
  match n.info with
  | some info => .ok info
  | none => .error (.unexpectedTag id "function" n.shape.tag)

def setIdentifier (name : Name) (id : NodeId) (n : Node) : Except Refusal Node := do
  let info ← n.requireInfo id
  let name ← once info.identifier name Name.empty id "internal identifier"
  .ok { n with info := some { info with identifier := name } }

def allocateLocal (type : TypeId) (id : NodeId) (n : Node) :
    Except Refusal (LocalSlot × Node) := do
  let info ← n.requireInfo id
  let place ← Forest.nextPlace info.locals.length
  .ok (⟨place⟩, { n with info := some { info with locals := info.locals ++ [type] } })

def setLocalType (slot : LocalSlot) (type : TypeId) (id : NodeId) (n : Node) :
    Except Refusal Node := do
  let info ← n.requireInfo id
  match info.locals[slot.raw]? with
  | none => .error (.unknownLocal id slot)
  | some current =>
      let type ← once current type TypeId.unresolved id "local type"
      .ok { n with info := some { info with locals := info.locals.set slot.raw type } }

/-- Adds local variables without types to a function until it has `count`. -/
def reserveLocals (count : Nat) (id : NodeId) (n : Node) : Except Refusal Node := do
  let info ← n.requireInfo id
  let fresh := List.replicate (count - info.locals.length) TypeId.unresolved
  .ok { n with info := some { info with locals := info.locals ++ fresh } }

end Node

namespace Forest

/-- The forest with another node at a number. -/
def replace (f : Forest) (id : NodeId) (node : Node) : Forest :=
  match f with
  | ⟨nodes, lists⟩ => ⟨nodes.setIfInBounds id.raw node, lists⟩

/-- Applies a rule with an answer to the node of a number. -/
def decorateWith {α : Type} (id : NodeId) (rule : Node → Except Refusal (α × Node)) : Action α :=
  fun f =>
    match f.node? id with
    | none => .error (.unknownNode id) f
    | some node =>
        match rule node with
        | .error refusal => .error refusal f
        | .ok (answer, node) => .ok answer (f.replace id node)

/-- **Applies a rule to the node of a number.** -/
def decorate (id : NodeId) (rule : Node → Except Refusal Node) : Action Unit :=
  decorateWith id fun node => (rule node).map fun node => ((), node)

theorem decorateWith_refused {α : Type} {id : NodeId}
    {rule : Node → Except Refusal (α × Node)} {f g : Forest} {refusal : Refusal}
    (h : decorateWith id rule f = .error refusal g) : g = f := by
  unfold decorateWith at h
  split at h
  · exact (EStateM.Result.error.inj h).2.symm
  · split at h
    · exact (EStateM.Result.error.inj h).2.symm
    · cases h

theorem decorate_refused {id : NodeId} {rule : Node → Except Refusal Node} {f g : Forest}
    {refusal : Refusal} (h : decorate id rule f = .error refusal g) : g = f :=
  decorateWith_refused h

end Forest

end SyntaxForest
