/-
**Shapes of nodes.**

The shape of a node is its sort and its contents: slots for single nodes, segments for sequences
of nodes, names and flags.  A slot that is left out holds `NodeId.absent`.  The children of a node
are read off its shape in the order in which they are declared or evaluated.  A specialised
function refers to its base but does not own it, so the base is not a child.

Main definitions:

* `Shape`, `Shape.tag` — the contents of a node, and its sort;
* `Segment.entries` — the entries of a segment of the flat store, none if it runs past the store;
* `Shape.children` — the children of a node;
* `Shape.mutable?`, `Shape.isExported`, `Shape.armBody?` — what a directive and an arm say.

Main results:

* `Segment.length_entries_le`, `Shape.length_children_le` — a node has at most three children
  more than the store has entries.
-/

import SyntaxForest.Syntax.Handle
import SyntaxForest.Syntax.Literal
import SyntaxForest.Syntax.Name
import SyntaxForest.Syntax.NodeId

set_option relaxedAutoImplicit false
set_option autoImplicit false

namespace SyntaxForest

/-- The sort and the contents of a node. -/
inductive Shape
  | document (directives : Segment)
  | nameIdentifier (name : Name)
  | typeReference (name : Name) (pointerDepth : Nat) (isArray : Bool)
  | variableReference (target : NodeId)
  /-- A parameter; its type and its default value may be left out. -/
  | parameter (name type default : NodeId)
  /-- A function; its return type and its body may be left out. -/
  | function (name returnType : NodeId) (parameters : Segment) (body : NodeId)
  /-- A function seen through a closure; its parts are those of its base. -/
  | specialized (base : NodeId) (closure : ClosureId)
  | funDirective (declared : NodeId) (exported : Bool)
  | overloads (name : Name) (members : Segment)
  /-- A declaration of a variable; its type and its value may be left out. -/
  | varDirective (name type value : NodeId) (exported : Bool)
  /-- A declaration of a constant, which has a value. -/
  | constDirective (name type value : NodeId) (exported : Bool)
  | typeDirective (name valueType : NodeId) (exported : Bool)
  | typeBody
  | literal (value : Literal)
  | call (callee : NodeId) (arguments : Segment) (isOperator : Bool)
  /-- A binary expression; the empty name is an operator not set yet. -/
  | binary (left : NodeId) (operator : Name) (right : NodeId)
  | unary (operator : Name) (operand : NodeId)
  | complement (operand : NodeId)
  | negation (operand : NodeId)
  | conditionArm (name condition body : NodeId)
  | literalArm (value body : NodeId)
  | defaultArm (body : NodeId)
  /-- A match; the value under scrutiny is kept in a local variable. -/
  | matching (scrutinee : NodeId) (arms : Segment) (slot : LocalSlot)
  deriving DecidableEq, Inhabited

/-- The entries of a segment, none if it runs past the store. -/
def Segment.entries (store : Array NodeId) (s : Segment) : List NodeId :=
  if s.isEmpty then []
  else if s.start + s.length ≤ store.size then
    (store.extract s.start (s.start + s.length)).toList
  else []

/-- The node in a slot, if the slot is not left out. -/
def NodeId.entries (slot : NodeId) : List NodeId :=
  if slot.isPresent then [slot] else []

namespace Shape

def tag : Shape → Tag
  | document _ => .document
  | nameIdentifier _ => .nameIdentifier
  | typeReference .. => .typeReference
  | variableReference _ => .variableReference
  | parameter .. => .parameter
  | function .. => .function
  | specialized .. => .specialized
  | funDirective .. => .funDirective
  | overloads .. => .overloads
  | varDirective .. => .varDirective
  | constDirective .. => .constDirective
  | typeDirective .. => .typeDirective
  | typeBody => .typeBody
  | literal value => value.tag
  | call .. => .call
  | binary .. => .binary
  | unary .. => .unary
  | complement _ => .complement
  | negation _ => .negation
  | conditionArm .. => .conditionArm
  | literalArm .. => .literalArm
  | defaultArm _ => .defaultArm
  | matching .. => .matching

def children (store : Array NodeId) : Shape → List NodeId
  | nameIdentifier _ => []
  | typeReference .. => []
  | typeBody => []
  | literal _ => []
  | specialized .. => []
  | document directives => directives.entries store
  | overloads _ members => members.entries store
  | variableReference target => target.entries
  | parameter name type default => name.entries ++ type.entries ++ default.entries
  | function name returnType parameters body =>
      name.entries ++ returnType.entries ++ parameters.entries store ++ body.entries
  | funDirective declared _ => declared.entries
  | varDirective name type value _ => name.entries ++ type.entries ++ value.entries
  | constDirective name type value _ => name.entries ++ type.entries ++ value.entries
  | typeDirective name valueType _ => name.entries ++ valueType.entries
  | call callee arguments _ => callee.entries ++ arguments.entries store
  | binary left _ right => left.entries ++ right.entries
  | unary _ operand => operand.entries
  | complement operand => operand.entries
  | negation operand => operand.entries
  | conditionArm name condition body => name.entries ++ condition.entries ++ body.entries
  | literalArm value body => value.entries ++ body.entries
  | defaultArm body => body.entries
  | matching scrutinee arms _ => scrutinee.entries ++ arms.entries store

/-- Whether the binding that a directive makes can change, for a directive that makes one. -/
def mutable? : Shape → Option Bool
  | varDirective .. => some true
  | constDirective .. => some false
  | _ => none

def isExported : Shape → Bool
  | funDirective _ exported => exported
  | varDirective _ _ _ exported => exported
  | constDirective _ _ _ exported => exported
  | typeDirective _ _ exported => exported
  | _ => false

def armBody? : Shape → Option NodeId
  | conditionArm _ _ body => some body
  | literalArm _ body => some body
  | defaultArm body => some body
  | _ => none

end Shape

/-! ### The number of children -/

theorem Segment.length_entries_le (store : Array NodeId) (s : Segment) :
    (s.entries store).length ≤ store.size := by
  unfold Segment.entries
  split
  · exact Nat.zero_le _
  · split
    · simp only [Array.length_toList, Array.size_extract]; omega
    · exact Nat.zero_le _

theorem NodeId.length_entries_le (slot : NodeId) : slot.entries.length ≤ 1 := by
  unfold NodeId.entries
  split <;> simp

theorem Shape.length_children_le (store : Array NodeId) (shape : Shape) :
    (shape.children store).length ≤ store.size + 3 := by
  have slot := NodeId.length_entries_le
  have segment := Segment.length_entries_le store
  cases shape with
  | document directives => have := segment directives; simp only [children]; omega
  | overloads name members => have := segment members; simp only [children]; omega
  | parameter name type default =>
      have := slot name; have := slot type; have := slot default
      simp only [children, List.length_append]; omega
  | function name returnType parameters body =>
      have := slot name; have := slot returnType; have := segment parameters
      have := slot body
      simp only [children, List.length_append]; omega
  | varDirective name type value exported | constDirective name type value exported =>
      have := slot name; have := slot type; have := slot value
      simp only [children, List.length_append]; omega
  | conditionArm name condition body =>
      have := slot name; have := slot condition; have := slot body
      simp only [children, List.length_append]; omega
  | typeDirective a b exported =>
      have := slot a; have := slot b
      simp only [children, List.length_append]; omega
  | binary a operator b =>
      have := slot a; have := slot b
      simp only [children, List.length_append]; omega
  | literalArm a b =>
      have := slot a; have := slot b
      simp only [children, List.length_append]; omega
  | call callee arguments isOperator =>
      have := slot callee; have := segment arguments
      simp only [children, List.length_append]; omega
  | matching scrutinee arms place =>
      have := slot scrutinee; have := segment arms
      simp only [children, List.length_append]; omega
  | variableReference a | complement a | negation a | defaultArm a =>
      have := slot a; simp only [children]; omega
  | funDirective a exported => have := slot a; simp only [children]; omega
  | unary operator a => have := slot a; simp only [children]; omega
  | nameIdentifier | typeReference | typeBody | literal | specialized =>
      simp [children]

end SyntaxForest
