/-
**Handles.**

A node refers to a type, a closure, a lexical context or an operation by its number in a table
that is kept elsewhere; the forest only compares such numbers.

Main definitions:

* `TypeId`, `TypeId.unresolved` — a type, and the mark for a type that is not known yet;
* `ClosureId`, `ContextId`, `OperationId` — a closure, a lexical context and an operation.
-/

set_option relaxedAutoImplicit false
set_option autoImplicit false

namespace SyntaxForest

structure TypeId where
  raw : Nat
  deriving DecidableEq, Inhabited

/-- The number of a closure: which outer variables a function body captures. -/
structure ClosureId where
  raw : Nat
  deriving DecidableEq, Inhabited

structure ContextId where
  raw : Nat
  deriving DecidableEq, Inhabited

/-- The number of an operation that a binary expression stands for. -/
structure OperationId where
  raw : Nat
  deriving DecidableEq, Inhabited

/-- The mark for a type that is not known yet. -/
def TypeId.unresolved : TypeId := ⟨4294967295⟩

def TypeId.isResolved (t : TypeId) : Bool := t ≠ TypeId.unresolved

def TypeId.describe (t : TypeId) : String := s!"TypeId({t.raw})"

def ClosureId.describe (c : ClosureId) : String := s!"ClosureId({c.raw})"

def ContextId.describe (c : ContextId) : String := s!"ContextId({c.raw})"

def OperationId.describe (o : OperationId) : String := s!"OperationId({o.raw})"

end SyntaxForest
