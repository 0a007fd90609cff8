/-
**Numbers of nodes.**

The nodes of a forest are numbered in the order in which they are made.  The largest 32-bit number
names no node: a slot that is left out holds it.  A sequence of nodes of any length is a segment
of one flat store of numbers.

Main definitions:

* `NodeId`, `NodeId.absent` — the number of a node, and the number that names none;
* `NodeId.toOption`, `NodeId.ofOption` — a slot as an option;
* `Segment` — a start and a length in the flat store;
* `LocalSlot` — the number of a local variable of a function.
-/

set_option relaxedAutoImplicit false
set_option autoImplicit false

namespace SyntaxForest

structure NodeId where
  raw : Nat
  deriving DecidableEq, Inhabited

namespace NodeId

/-- The number that names no node. -/
def absent : NodeId := ⟨4294967295⟩

/-- A number that may name a node. -/
def isPresent (id : NodeId) : Bool := id ≠ absent

def toOption (id : NodeId) : Option NodeId := if id.isPresent then some id else none

def ofOption (id : Option NodeId) : NodeId := id.getD absent

def text (id : NodeId) : String := s!"#{id.raw}"

def describe (id : NodeId) : String :=
  if id.isPresent then s!"NodeId({id.raw})" else "NodeId::INVALID"

instance : ToString NodeId := ⟨text⟩

end NodeId

/-- A stretch of the flat store of node numbers. -/
structure Segment where
  start : Nat
  length : Nat
  deriving DecidableEq, Inhabited

namespace Segment

def empty : Segment := ⟨0, 0⟩

def isEmpty (s : Segment) : Bool := s.length = 0

/-- The place after the last entry, if it is a 32-bit number. -/
def stop? (s : Segment) : Option Nat :=
  if s.start + s.length ≤ 4294967295 then some (s.start + s.length) else none

/-- The places of the entries, unless they run past the 32-bit numbers. -/
def places? (s : Segment) : Option (List Nat) :=
  s.stop?.map fun _ => List.range' s.start s.length

def describe? (s : Segment) : Option String :=
  s.stop?.map fun stop => s!"NodeRange({s.start}..{stop})"

end Segment

/-- The number of a local variable of a function. -/
structure LocalSlot where
  raw : Nat
  deriving DecidableEq, Inhabited

def LocalSlot.describe (s : LocalSlot) : String := s!"LocalSlot({s.raw})"

end SyntaxForest
