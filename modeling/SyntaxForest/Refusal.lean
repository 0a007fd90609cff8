/-
**Refusals and faults.**

An operation that would break a rule of the forest is refused, and the refusal says which rule and
at which node.  An operation that is asked about a node that was never made, that would not end, or
that would write a line too wide to be laid out, breaks off with a fault, which has no wording.

Main definitions:

* `Refusal`, `Refusal.message` — the broken rules, and their wording;
* `Fault`, `Failure` — the faults, and the two ways of failing together.
-/

import SyntaxForest.Source.Span
import SyntaxForest.Syntax.Literal
import SyntaxForest.Syntax.Name
import SyntaxForest.Syntax.NodeId
import SyntaxForest.Text.Quoted

set_option relaxedAutoImplicit false
set_option autoImplicit false

namespace SyntaxForest

inductive Refusal
  | unknownNode (node : NodeId)
  | alreadyOwned (child owner : NodeId)
  | listTooLong (what : String) (length : Nat)
  /-- There is no room for another node, list entry or local. -/
  | full
  | unexpectedTag (node : NodeId) (expected : String) (found : Tag)
  | emptyGroup (name : Name)
  | nameMismatch (member : NodeId) (expected found : Name)
  | uninitializedConst (span : Span)
  | missingOperator (node : NodeId)
  /-- A specialised function would be specialised again. -/
  | nestedSpecialization (node : NodeId)
  | noEnclosingFunction
  | unbalancedFunction
  | defaultArmNotLast (arm : NodeId)
  | decorationConflict (node : NodeId) (decoration : String)
  | literalKindMismatch (node : NodeId) (expected found : LiteralKind)
  | invalidLiteral (kind : LiteralKind) (text : String)
  | unknownLocal (function : NodeId) (slot : LocalSlot)
  /-- A child does not name as its owner the node that lists it. -/
  | brokenOwnerLink (child expected found : NodeId)
  deriving DecidableEq

def Refusal.message : Refusal → String
  | unknownNode node => s!"node {node} does not exist in this arena"
  | alreadyOwned child owner => s!"node {child} is already owned by {owner}"
  | listTooLong what length => s!"{what} list of {length} entries exceeds the arena limit"
  | full => "node arena exceeded u32::MAX nodes"
  | unexpectedTag node expected found => s!"node {node} is a {found}, expected {expected}"
  | emptyGroup name => s!"overload group {name.describe} has no members"
  | nameMismatch member expected found =>
      s!"overload member {member} is named {found.describe}, "
        ++ s!"group is named {expected.describe}"
  | uninitializedConst span => s!"const directive at {span} has no initializer"
  | missingOperator node => s!"binary expression {node} has no operator"
  | nestedSpecialization node =>
      s!"function {node} is already specialized; specialize its base declaration instead"
  | noEnclosingFunction => "match expression lowered outside of any function"
  | unbalancedFunction => "function finished without a matching begin_function"
  | defaultArmNotLast arm => s!"default arm {arm} must be the last arm of its match"
  | decorationConflict node decoration =>
      s!"{decoration} of node {node} is already set to a different value"
  | literalKindMismatch node expected found =>
      s!"literal {node} holds a {found} value, cannot store a {expected} value"
  | invalidLiteral kind text => s!"invalid {kind} literal {Text.quoted text}"
  | unknownLocal function slot => s!"function {function} has no local slot {slot.raw}"
  | brokenOwnerLink child expected found =>
      s!"node {child} lists {expected} as owner but its parent link is {found}"

/-- What an operation breaks off with, without a word. -/
inductive Fault
  /-- The contents of a node are wanted that was never made. -/
  | unallocated (node : NodeId)
  /-- A walk would not end. -/
  | endless
  /-- A line would be indented further than a field can be wide. -/
  | tooWide
  deriving DecidableEq

/-- The two ways of failing. -/
inductive Failure
  | refused (refusal : Refusal)
  | fault (fault : Fault)
  deriving DecidableEq

end SyntaxForest
