/-
**Making nodes.**

A node is made after its children and becomes their owner.  It is refused if a child does not
exist, has an owner already or is listed twice, or if it breaks a rule of its own sort: a
specialised function has a plain function as its base, a constant has a value, and a group of
overloads has members, all of them declarations of functions with the name of the group.  A
refusal changes nothing.

Main definitions:

* `Forest.Action` — a change of a forest that may be refused;
* `Forest.checkOwnership`, `Forest.checkContents`, `Forest.checkNode` — the rules;
* `Forest.insert`, `Forest.insertDerived` — making a node, from the source or from another node;
* `Forest.storeList` — keeping a sequence of node numbers as a segment;
* `Forest.specialize`, `Forest.groupFunctions` — making a specialised function and a group of
  overloads.

Main results:

* `Forest.insert_refused`, `Forest.insertDerived_refused`, `Forest.storeList_refused` — what is
  refused changes nothing.
-/

import SyntaxForest.Forest.Function

set_option relaxedAutoImplicit false
set_option autoImplicit false

namespace SyntaxForest

namespace Forest

/-- A change of a forest that may be refused; the forest after a refusal is part of the answer. -/
abbrev Action (α : Type) := EStateM Refusal Forest α

/-- The number after `used` numbers, if there is one that names something. -/
def nextPlace (used : Nat) : Except Refusal Nat :=
  if used < maxWord then .ok used else .error .full

/-! ### Rules -/

/-- Each child exists, has no owner other than `owner`, and is not among the earlier ones. -/
def checkOwnership (f : Forest) (owner : NodeId) :
    (earlier children : List NodeId) → Except Refusal Unit
  | _, [] => .ok ()
  | earlier, child :: rest =>
      match f.node? child with
      | none => .error (.unknownNode child)
      | some node =>
          -- A node whose shape is exchanged may list children that it owns already.
          match node.parent.filter (· ≠ owner) with
          | some other => .error (.alreadyOwned child other)
          | none =>
              if child ∈ earlier then .error (.alreadyOwned child owner)
              else checkOwnership f owner (child :: earlier) rest

def checkMembers (f : Forest) (name : Name) : List NodeId → Except Refusal Unit
  | [] => .ok ()
  | member :: rest =>
      match f.declaredName member with
      | .error refusal => .error refusal
      | .ok found =>
          if found = name then checkMembers f name rest
          else .error (.nameMismatch member name found)

def checkContents (f : Forest) (shape : Shape) (span : Span) : Except Refusal Unit :=
  match shape with
  | .specialized base _ =>
      match f.require base with
      | .error refusal => .error refusal
      | .ok node =>
          match node.shape with
          | .function .. => .ok ()
          | .specialized .. => .error (.nestedSpecialization base)
          | other => .error (.unexpectedTag base "FunctionNode" other.tag)
  | .constDirective _ _ value _ =>
      if value.isPresent then .ok () else .error (.uninitializedConst span)
  | .overloads name members =>
      if (f.list members).isEmpty then .error (.emptyGroup name)
      else f.checkMembers name (f.list members)
  | _ => .ok ()

/-- A node of a shape can be made; it will have the answered number. -/
def checkNode (f : Forest) (shape : Shape) (span : Span) : Except Refusal NodeId :=
  match nextPlace f.size with
  | .error refusal => .error refusal
  | .ok place =>
      match f.checkOwnership ⟨place⟩ [] (shape.children f.lists) with
      | .error refusal => .error refusal
      | .ok () =>
          match f.checkContents shape span with
          | .error refusal => .error refusal
          | .ok () => .ok ⟨place⟩

/-! ### Changes -/

/-- Nodes of which the listed ones are owned by `owner`. -/
def adopt (owner : NodeId) (nodes : Array Node) (children : List NodeId) : Array Node :=
  children.foldl
    (fun nodes child => nodes.modify child.raw fun node => { node with parent := some owner })
    nodes

/-- The forest with a node more, which owns its children. -/
def add (f : Forest) (shape : Shape) (span : Span) (donor : Option NodeId) : Forest :=
  match f with
  | ⟨nodes, lists⟩ =>
      let id : NodeId := ⟨nodes.size⟩
      ⟨adopt id (nodes.push (Node.fresh shape span donor)) (shape.children lists), lists⟩

def insert (shape : Shape) (span : Span) : Action NodeId := fun f =>
  match f.checkNode shape span with
  | .error refusal => .error refusal f
  | .ok id => .ok id (f.add shape span none)

/-- Makes a node that is not in the source; it has the span of the node it is derived from. -/
def insertDerived (shape : Shape) (donor : NodeId) : Action NodeId := fun f =>
  match f.node? donor with
  | none => .error (.unknownNode donor) f
  | some node =>
      match f.checkNode shape node.span with
      | .error refusal => .error refusal f
      | .ok id => .ok id (f.add shape node.span (some donor))

/-- The largest number of entries of a segment. -/
def maxListLength : Nat := 65535

/-- Keeps a sequence of node numbers; `what` names it in a refusal. -/
def storeList (ids : List NodeId) (what : String) : Action Segment := fun f =>
  if ids.isEmpty then .ok Segment.empty f
  else if maxListLength < ids.length then .error (.listTooLong what ids.length) f
  else
    match nextPlace f.lists.size with
    | .error refusal => .error refusal f
    | .ok start => .ok ⟨start, ids.length⟩ ⟨f.nodes, f.lists ++ ids⟩

def specialize (base : NodeId) (closure : ClosureId) : Action NodeId :=
  insertDerived (.specialized base closure) base

def groupFunctions (name : Name) (members : List NodeId) : Action NodeId :=
  match members with
  | [] => throw (.emptyGroup name)
  | first :: _ => do
      let segment ← storeList members "overload members"
      insertDerived (.overloads name segment) first

/-! ### Refusals change nothing -/

theorem insert_refused {shape : Shape} {span : Span} {f g : Forest} {refusal : Refusal}
    (h : insert shape span f = .error refusal g) : g = f := by
  unfold insert at h
  split at h
  · exact (EStateM.Result.error.inj h).2.symm
  · cases h

theorem insertDerived_refused {shape : Shape} {donor : NodeId} {f g : Forest}
    {refusal : Refusal} (h : insertDerived shape donor f = .error refusal g) : g = f := by
  unfold insertDerived at h
  split at h
  · exact (EStateM.Result.error.inj h).2.symm
  · split at h
    · exact (EStateM.Result.error.inj h).2.symm
    · cases h

theorem storeList_refused {ids : List NodeId} {what : String} {f g : Forest}
    {refusal : Refusal} (h : storeList ids what f = .error refusal g) : g = f := by
  unfold storeList at h
  split at h
  · cases h
  · split at h
    · exact (EStateM.Result.error.inj h).2.symm
    · split at h
      · exact (EStateM.Result.error.inj h).2.symm
      · cases h

end Forest

end SyntaxForest
