/-
**Regrouping declarations.**

The declarations of functions that share a name at the top level are gathered into one group,
which takes the place of the first of them.  To form the groups the document first gives up all
its directives, so that a group may own its members, and then owns the new list.  When a step
fails, what was made since is dropped and the document owns its directives again.

Main definitions:

* `Forest.replaceShape` — a node with another shape, its children exchanged;
* `Forest.Mark`, `Forest.mark`, `Forest.rollback` — dropping what was made since a mark;
* `Forest.regroup`, `Forest.regroupOrRestore` — the new list of directives, and its undoing;
* `Forest.regroupDocument` — regrouping the declarations of a document.

Main results:

* `Forest.groupsNeeded_eq_false_iff` — there is nothing to do exactly when no name is shared.
-/

import SyntaxForest.Forest.Insert

set_option relaxedAutoImplicit false
set_option autoImplicit false

namespace SyntaxForest

namespace Forest

/-- A change of a forest that may be refused or be at fault. -/
abbrev Attempt (α : Type) := EStateM Failure Forest α

/-- A change that may be refused, among changes that may also be at fault. -/
def Action.toAttempt {α : Type} (action : Action α) : Attempt α := fun f =>
  match action f with
  | .ok answer f => .ok answer f
  | .error refusal f => .error (.refused refusal) f

def ask {α : Type} (question : Forest → Except Refusal α) : Attempt α := fun f =>
  match question f with
  | .ok answer => .ok answer f
  | .error refusal => .error (.refused refusal) f

def tagOf (id : NodeId) : Attempt Tag := fun f =>
  match f.tag? id with
  | some tag => .ok tag f
  | none => .error (.fault (.unallocated id)) f

/-! ### Exchanging the contents of a node -/

/-- Nodes of which those of the listed ones that `owner` owns are owned by none. -/
def release (owner : NodeId) (nodes : Array Node) (children : List NodeId) : Array Node :=
  children.foldl
    (fun nodes child => nodes.modify child.raw fun node =>
      if node.parent = some owner then { node with parent := none } else node)
    nodes

def checkReplacement (f : Forest) (id : NodeId) (node : Node) (shape : Shape) :
    Except Refusal Unit :=
  match f.checkOwnership id [] (shape.children f.lists) with
  | .error refusal => .error refusal
  | .ok () => f.checkContents shape node.span

/-- Gives a node another shape: it gives up its children and owns those of the new shape. -/
def replaceShape (id : NodeId) (shape : Shape) : Attempt Unit := fun f =>
  match f.node? id with
  | none => .error (.refused (.unknownNode id)) f
  | some node =>
      match f.checkReplacement id node shape with
      | .error refusal => .error (.refused refusal) f
      | .ok () =>
          match (f.childrenOf node).find? fun child => !f.contains child with
          | some child => .error (.fault (.unallocated child)) f
          | none =>
              -- A child of both shapes is given up first and owned again afterwards.
              let nodes := release id f.nodes (f.childrenOf node)
              let nodes := adopt id nodes (shape.children f.lists)
              .ok () ⟨nodes.modify id.raw fun node => { node with shape := shape }, f.lists⟩

/-! ### Dropping what was made since a mark -/

structure Mark where
  nodes : Nat
  lists : Nat
  deriving DecidableEq, Inhabited

def mark (f : Forest) : Mark := ⟨f.nodes.size, f.lists.size⟩

/-- Nodes after the `extra` last of `kept + extra` nodes have given up their children. -/
def releaseLast (lists : Array NodeId) (kept : Nat) : (extra : Nat) → Array Node → Array Node
  | 0, nodes => nodes
  | extra + 1, nodes =>
      match nodes[kept + extra]? with
      | none => releaseLast lists kept extra nodes
      | some node =>
          releaseLast lists kept extra
            (release ⟨kept + extra⟩ nodes (node.shape.children lists))

/-- The forest without what was made since a mark; the children of dropped nodes are owned by
none. -/
def rollback (f : Forest) (m : Mark) : Forest :=
  let nodes := releaseLast f.lists m.nodes (f.nodes.size - m.nodes) f.nodes
  ⟨nodes.take m.nodes, f.lists.take m.lists⟩

/-! ### Groups -/

/-- What becomes of a directive. -/
inductive Fate
  | kept (directive : NodeId)
  /-- A group takes its place. -/
  | grouped (group : NodeId)
  /-- It goes into the group of an earlier one. -/
  | merged
  deriving DecidableEq

/-- The new groups among the fates of directives. -/
def Fate.groups (fates : List Fate) : List NodeId :=
  fates.filterMap fun
    | .grouped group => some group
    | _ => none

/-- The directives that are left after the fates of directives. -/
def Fate.directives (fates : List Fate) : List NodeId :=
  fates.filterMap fun
    | .kept directive => some directive
    | .grouped group => some group
    | .merged => none

/-- The fate of a directive, its group made if it is the first member; `members` lists the members
of the group of a name. -/
def regroupOne (members : Name → List NodeId) (directive : NodeId) : Attempt Fate := do
  if (← tagOf directive) ≠ .funDirective then return .kept directive
  let name ← ask (·.declaredName directive)
  match members name with
  | [] => return .kept directive
  | [_] => return .kept directive
  | first :: second :: rest =>
      if first = directive then
        return .grouped (← (groupFunctions name (first :: second :: rest)).toAttempt)
      else return .merged

def regroupEach (members : Name → List NodeId) : List NodeId → Attempt (List Fate)
  | [] => return []
  | directive :: rest => do
      let fate ← regroupOne members directive
      let fates ← regroupEach members rest
      return fate :: fates

/-- **Rebuilds the directives of a document,** each name with more than one member grouped. -/
def regroup (root : NodeId) (directives : List NodeId) (members : Name → List NodeId) :
    Attempt (List NodeId) := do
  -- The document gives up its directives, so that a group may own its members.
  replaceShape root (.document Segment.empty)
  let fates ← regroupEach members directives
  let segment ← (storeList (Fate.directives fates) "directives").toAttempt
  replaceShape root (.document segment)
  return Fate.groups fates

/-- Rebuilds the directives of a document, or restores them if a step is refused. -/
def regroupOrRestore (root : NodeId) (former : Segment) (members : Name → List NodeId) :
    Attempt (List NodeId) := fun f =>
  match regroup root (f.list former) members f with
  | .error (.refused refusal) g =>
      match replaceShape root (.document former) (g.rollback f.mark) with
      | .ok () g => .error (.refused refusal) g
      | .error failure g => .error failure g
  | result => result

/-- The names that directives declare functions with, each with its directive, in order. -/
def declaredNames (f : Forest) : List NodeId → Except Failure (List (Name × NodeId))
  | [] => .ok []
  | directive :: rest =>
      match f.tag? directive with
      | none => .error (.fault (.unallocated directive))
      | some tag =>
          if tag = .funDirective then
            match f.declaredName directive with
            | .error refusal => .error (.refused refusal)
            | .ok name => (declaredNames f rest).map ((name, directive) :: ·)
          else declaredNames f rest

/-- The directives that declare a name. -/
def membersOf (declared : List (Name × NodeId)) (name : Name) : List NodeId :=
  (declared.filter (·.1 = name)).map (·.2)

/-- A name is declared more than once. -/
def groupsNeeded (declared : List (Name × NodeId)) : Bool :=
  declared.any fun entry => 2 ≤ (membersOf declared entry.1).length

def directivesOf (f : Forest) (root : NodeId) : Except Refusal Segment := do
  let node ← f.require root
  match node.shape with
  | .document directives => .ok directives
  | shape => .error (.unexpectedTag root "DocumentNode" shape.tag)

/-- **Groups the declarations of a document by name**; the answer lists the new groups. -/
def regroupDocument (root : NodeId) : Attempt (List NodeId) := do
  let former ← ask (·.directivesOf root)
  let declared ← fun f =>
    match f.declaredNames (f.list former) with
    | .ok declared => .ok declared f
    | .error failure => .error failure f
  if groupsNeeded declared then regroupOrRestore root former (membersOf declared)
  else return []

theorem groupsNeeded_eq_false_iff (declared : List (Name × NodeId)) :
    groupsNeeded declared = false
      ↔ ∀ entry ∈ declared, (membersOf declared entry.1).length < 2 := by
  simp [groupsNeeded]

end Forest

end SyntaxForest
