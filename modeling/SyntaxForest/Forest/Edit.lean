/-
**Edits of a forest.**

Everything that may be done to a forest from outside, apart from regrouping a document, is an
edit.  Edits are data, so a history of a forest is a list of edits.

Main definitions:

* `Edit`, `Edit.Answer` — an edit, and what it answers;
* `Edit.run` — doing an edit;
* `Edit.runAll` — doing a list of edits, the refused ones among them.
-/

import SyntaxForest.Forest.Decorate

set_option relaxedAutoImplicit false
set_option autoImplicit false

namespace SyntaxForest

inductive Edit
  | insert (shape : Shape) (span : Span)
  | insertDerived (shape : Shape) (donor : NodeId)
  | storeList (ids : List NodeId) (what : String)
  | setParenthesized (node : NodeId)
  | setType (node : NodeId) (type : TypeId)
  | addError (node : NodeId) (error : NodeError)
  | setNativeType (node : NodeId) (type : TypeId)
  | setOperation (node : NodeId) (operation : OperationId)
  | setLiteral (node : NodeId) (value : Literal)
  | setIdentifier (function : NodeId) (name : Name)
  | allocateLocal (function : NodeId) (type : TypeId)
  | setLocalType (function : NodeId) (slot : LocalSlot) (type : TypeId)
  | specialize (base : NodeId) (closure : ClosureId)
  | groupFunctions (name : Name) (members : List NodeId)
  deriving DecidableEq

namespace Edit

inductive Answer
  | done
  | node (id : NodeId)
  | segment (segment : Segment)
  | slot (slot : LocalSlot)
  deriving DecidableEq

open Forest in
/-- **Does an edit.** -/
def run : Edit → Forest.Action Answer
  | insert shape span => Answer.node <$> Forest.insert shape span
  | insertDerived shape donor => Answer.node <$> Forest.insertDerived shape donor
  | storeList ids what => Answer.segment <$> Forest.storeList ids what
  | setParenthesized node => (fun _ => Answer.done) <$> decorate node Node.setParenthesized
  | setType node type => (fun _ => Answer.done) <$> decorate node (Node.setType type node)
  | addError node error => (fun _ => Answer.done) <$> decorate node (Node.addError error)
  | setNativeType node type =>
      (fun _ => Answer.done) <$> decorate node (Node.setNativeType type node)
  | setOperation node operation =>
      (fun _ => Answer.done) <$> decorate node (Node.setOperation operation node)
  | setLiteral node value => (fun _ => Answer.done) <$> decorate node (Node.setLiteral value node)
  | setIdentifier function name =>
      (fun _ => Answer.done) <$> decorate function (Node.setIdentifier name function)
  | allocateLocal function type =>
      Answer.slot <$> decorateWith function (Node.allocateLocal type function)
  | setLocalType function slot type =>
      (fun _ => Answer.done) <$> decorate function (Node.setLocalType slot type function)
  | specialize base closure => Answer.node <$> Forest.specialize base closure
  | groupFunctions name members => Answer.node <$> Forest.groupFunctions name members

def after (f : Forest) (edit : Edit) : Forest :=
  match edit.run f with
  | .ok _ g => g
  | .error _ g => g

def runAll (f : Forest) (edits : List Edit) : Forest := edits.foldl after f

end Edit

end SyntaxForest
