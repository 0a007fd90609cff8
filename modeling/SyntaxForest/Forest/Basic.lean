/-
**Forests of syntax nodes.**

A forest is an array of nodes, numbered by their places, and a flat store of node numbers in which
the segments of their shapes lie.  A node records its shape, its span and its owner, and the
decorations that later passes put on it: its type, whether it was written in parentheses, the node
it was derived from, the errors found in it and what is particular to functions, type bodies and
binary expressions.

Main definitions:

* `NodeError`, `FunctionInfo`, `Node`, `Forest` — the data;
* `Forest.node?`, `Forest.require` — the node of a number;
* `Forest.children?`, `Forest.list` — the children of a node and the entries of a segment;
* `Forest.errors`, `Forest.locals`, `Forest.identifier?`, … — the decorations of a node, empty for
  a number without a node.

Main results:

* `Forest.require_eq_ok_iff` — a number is known exactly when it has a node;
* `Forest.contains_iff` — and exactly when it is below the number of nodes.
-/

import SyntaxForest.Refusal
import SyntaxForest.Syntax.Shape

set_option relaxedAutoImplicit false
set_option autoImplicit false

namespace SyntaxForest

structure NodeError where
  message : String
  note : Option String
  deriving DecidableEq, Inhabited

structure ParseError where
  message : String
  span : Span
  deriving DecidableEq, Inhabited

structure FunctionInfo where
  /-- The unique name given to it after analysis; empty if none is given yet. -/
  identifier : Name
  locals : List TypeId
  deriving DecidableEq, Inhabited

structure Node where
  shape : Shape
  span : Span
  parent : Option NodeId
  type : TypeId
  parenthesized : Bool
  /-- The node it was derived from, for a node that is not in the source. -/
  donor : Option NodeId
  errors : List NodeError
  /-- What is recorded of it as a function. -/
  info : Option FunctionInfo
  /-- The type that it defines, for a type body. -/
  nativeType : Option TypeId
  /-- The operation that it stands for, for a binary expression. -/
  operation : Option OperationId
  deriving DecidableEq, Inhabited

/-- A node as it is made, without an owner and without decorations. -/
def Node.fresh (shape : Shape) (span : Span) (donor : Option NodeId) : Node where
  shape := shape
  span := span
  parent := none
  type := TypeId.unresolved
  parenthesized := false
  donor := donor
  errors := []
  info := if shape.tag.isFunction then some ⟨Name.empty, []⟩ else none
  nativeType := none
  operation := none

/-- A node that is not in the source. -/
def Node.isDerived (n : Node) : Bool := n.donor.isSome

/-- Numbered nodes and the store of their segments. -/
structure Forest where
  /-- The nodes; a node stands at its number. -/
  nodes : Array Node
  lists : Array NodeId
  deriving Inhabited

namespace Forest

def empty : Forest := ⟨#[], #[]⟩

def size (f : Forest) : Nat := f.nodes.size

/-- The node of a number. -/
def node? (f : Forest) (id : NodeId) : Option Node := f.nodes[id.raw]?

def contains (f : Forest) (id : NodeId) : Bool := (f.node? id).isSome

/-- The node of a number, or the refusal of a number without one. -/
def require (f : Forest) (id : NodeId) : Except Refusal Node :=
  match f.node? id with
  | some node => .ok node
  | none => .error (.unknownNode id)

/-- The numbers of all nodes, in order. -/
def ids (f : Forest) : List NodeId := (List.range f.size).map NodeId.mk

def list (f : Forest) (s : Segment) : List NodeId := s.entries f.lists

def childrenOf (f : Forest) (node : Node) : List NodeId := node.shape.children f.lists

def children? (f : Forest) (id : NodeId) : Option (List NodeId) :=
  (f.node? id).map f.childrenOf

def tag? (f : Forest) (id : NodeId) : Option Tag := (f.node? id).map (·.shape.tag)

/-! ### Decorations -/

def errors (f : Forest) (id : NodeId) : List NodeError :=
  ((f.node? id).map (·.errors)).getD []

def errorCount (f : Forest) : Nat :=
  f.nodes.foldl (fun count node => count + node.errors.length) 0

def donor? (f : Forest) (id : NodeId) : Option NodeId := (f.node? id).bind (·.donor)

def info? (f : Forest) (id : NodeId) : Option FunctionInfo := (f.node? id).bind (·.info)

def locals (f : Forest) (id : NodeId) : List TypeId :=
  ((f.info? id).map (·.locals)).getD []

def identifier? (f : Forest) (id : NodeId) : Option Name :=
  ((f.info? id).map (·.identifier)).filter fun name => !name.isEmpty

def nativeType? (f : Forest) (id : NodeId) : Option TypeId := (f.node? id).bind (·.nativeType)

def operation? (f : Forest) (id : NodeId) : Option OperationId :=
  (f.node? id).bind (·.operation)

def literal? (f : Forest) (id : NodeId) : Option Literal :=
  match f.node? id with
  | some node =>
      match node.shape with
      | .literal value => some value
      | _ => none
  | none => none

/-! ### Known numbers -/

theorem require_eq_ok_iff {f : Forest} {id : NodeId} {node : Node} :
    f.require id = .ok node ↔ f.node? id = some node := by
  unfold require
  cases f.node? id <;> simp

theorem contains_iff {f : Forest} {id : NodeId} : f.contains id ↔ id.raw < f.size := by
  simp [contains, node?, size]

end Forest

end SyntaxForest
