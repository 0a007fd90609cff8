/-
**The parts of functions.**

A specialised function has no parts of its own: its name, return type, parameters and body are
those of the function it specialises, seen through a closure.  The declaration of a function has
the name of its function.

Main definitions:

* `FunctionParts`, `Forest.functionParts` — the parts of a function, plain or specialised;
* `Forest.baseFunction` — the plain function behind a function;
* `Forest.declaredName` — the name that a declaration of a function declares.

Main results:

* `Forest.functionParts_of_function` — a plain function has its own parts.
-/

import SyntaxForest.Forest.Basic

set_option relaxedAutoImplicit false
set_option autoImplicit false

namespace SyntaxForest

structure FunctionParts where
  /-- The plain function that owns the other parts. -/
  declaration : NodeId
  name : NodeId
  returnType : Option NodeId
  parameters : Segment
  body : Option NodeId
  /-- The closure through which the function is seen, if it is specialised. -/
  closure : Option ClosureId
  deriving DecidableEq, Inhabited

namespace Forest

/-- The parts of a function, following at most `fuel` functions to their bases. -/
def functionPartsF (f : Forest) : (fuel : Nat) → NodeId → Except Refusal FunctionParts
  | 0, id => .error (.unknownNode id)
  | fuel + 1, id =>
      match f.node? id with
      | none => .error (.unknownNode id)
      | some node =>
          match node.shape with
          | .function name returnType parameters body =>
              .ok ⟨id, name, returnType.toOption, parameters, body.toOption, none⟩
          | .specialized base closure =>
              match functionPartsF f fuel base with
              | .error refusal => .error refusal
              | .ok parts => .ok { parts with closure := some closure }
          | shape => .error (.unexpectedTag id "function" shape.tag)

/-- **The parts of a function.** -/
def functionParts (f : Forest) (id : NodeId) : Except Refusal FunctionParts :=
  f.functionPartsF (f.size + 1) id

/-- The plain function behind a function. -/
def baseFunction (f : Forest) (id : NodeId) : Except Refusal NodeId :=
  (f.functionParts id).map (·.declaration)

/-- The function that a declaration of a function declares. -/
def declaredFunction (f : Forest) (directive : NodeId) : Except Refusal NodeId := do
  let node ← f.require directive
  match node.shape with
  | .funDirective function _ => .ok function
  | shape => .error (.unexpectedTag directive "FunDirectiveNode" shape.tag)

def identifierName (f : Forest) (id : NodeId) : Except Refusal Name := do
  let node ← f.require id
  match node.shape with
  | .nameIdentifier name => .ok name
  | shape => .error (.unexpectedTag id "NameIdentifierNode" shape.tag)

/-- **The name that a declaration of a function declares.** -/
def declaredName (f : Forest) (directive : NodeId) : Except Refusal Name := do
  let function ← f.declaredFunction directive
  let parts ← f.functionParts function
  f.identifierName parts.name

theorem functionParts_of_function {f : Forest} {id : NodeId} {node : Node}
    {name returnType body : NodeId} {parameters : Segment} (h : f.node? id = some node)
    (shape : node.shape = .function name returnType parameters body) :
    f.functionParts id
      = .ok ⟨id, name, returnType.toOption, parameters, body.toOption, none⟩ := by
  simp only [functionParts, functionPartsF, h, shape]

end Forest

end SyntaxForest
