/-
**Tables without guards.**

The tables of a forest forgive: a number that they do not have is answered with nothing, writing to
it does nothing, and a search for the plain function behind a function is cut off when it has taken
too long.  So no operation goes wrong on them, not even one that had forgotten to look whether a
node exists, and that no operation goes wrong says nothing.  This module has the same operations on
tables that do not forgive.  To read or write outside of them is a fault, and so is a search that
does not end.  In a forest that keeps its promises these operations do what the others do: they find
the same faults, which are those that the others name too, and no more.

Main definitions:

* `Stop` — the ways of stopping before the end;
* `Step.heed`, `Step.Agrees` — a step whose failures are stops, and an operation that agrees with
  it;
* `Forest.Unguarded.read`, `Forest.Unguarded.write` — a table that does not forgive;
* `Forest.Unguarded.insert`, `Forest.Unguarded.groupFunctions` — making nodes on such tables.

Main results:

* `Step.Agrees.bind` — steps in a row agree if each of them does;
* `Forest.Unguarded.checkNode_eq` — the rules are looked at alike;
* `Forest.Unguarded.insert_agrees`, `Forest.Unguarded.groupFunctions_agrees` — **nodes are made
  alike.**
-/

import SyntaxForest.Proofs.Forest.Specialized

set_option relaxedAutoImplicit false
set_option autoImplicit false

namespace SyntaxForest

/-- The ways of stopping before the end. -/
inductive Stop
  | refused (refusal : Refusal)
  /-- A table is read or written outside, or a search does not end. -/
  | fault (fault : Fault)
  /-- A number would not fit into its word. -/
  | overflow
  deriving DecidableEq

/-- A failure as a stop. -/
def Stop.ofFailure : Failure → Stop
  | .refused refusal => .refused refusal
  | .fault found => .fault found

namespace Step

variable {ε σ α β : Type} {stop : ε → Stop} {P Q : σ → Prop} {R : α → σ → Prop}

/-- A step whose failures are stops. -/
def heed (stop : ε → Stop) (step : EStateM ε σ α) : EStateM Stop σ α := fun s =>
  match step s with
  | .ok answer t => .ok answer t
  | .error e t => .error (stop e) t

/-- An operation does what a step does in the states of a sort. -/
def Agrees (stop : ε → Stop) (P : σ → Prop) (step : EStateM ε σ α)
    (operation : EStateM Stop σ α) : Prop :=
  ∀ s, P s → operation s = heed stop step s

namespace Agrees

variable {step : EStateM ε σ α} {operation : EStateM Stop σ α} {next : α → EStateM ε σ β}
  {later : α → EStateM Stop σ β}

theorem self (step : EStateM ε σ α) : Agrees stop P step (heed stop step) := fun _ _ => rfl

theorem pure (answer : α) : Agrees stop P (Pure.pure answer : EStateM ε σ α) (Pure.pure answer) :=
  fun _ _ => rfl

/-- **Steps in a row agree if each of them does.** -/
theorem bind (first : Agrees stop P step operation)
    (kept : ∀ {s answer t}, P s → step s = .ok answer t → R answer t)
    (second : ∀ answer, Agrees stop (R answer) (next answer) (later answer)) :
    Agrees stop P (step >>= next) (operation >>= later) := by
  intro s hs
  have hfirst := first s hs
  change EStateM.bind operation later s = heed stop (EStateM.bind step next) s
  unfold heed at hfirst ⊢
  cases hr : step s with
  | error e t =>
      rw [hr] at hfirst
      simp only [EStateM.bind, hfirst, hr]
  | ok answer t =>
      rw [hr] at hfirst
      simp only [EStateM.bind, hfirst, hr]
      exact second answer t (kept hs hr)

theorem last (make : α → β) (first : Agrees stop P step operation) :
    Agrees stop P (step >>= fun answer => Pure.pure (make answer))
      (operation >>= fun answer => Pure.pure (make answer)) :=
  first.bind (R := fun _ _ => True) (fun _ _ => True.intro) fun answer => .pure (make answer)

theorem map (make : α → β) (agrees : Agrees stop P step operation) :
    Agrees stop P (make <$> step) (make <$> operation) := by
  intro s hs
  have hagrees := agrees s hs
  change EStateM.map make operation s = heed stop (EStateM.map make step) s
  unfold heed at hagrees ⊢
  simp only [EStateM.map, hagrees]
  cases step s <;> rfl

theorem ite {c : Prop} [Decidable c] {other : EStateM ε σ α} {otherwise : EStateM Stop σ α}
    (yes : Agrees stop P step operation) (no : Agrees stop P other otherwise) :
    Agrees stop P (if c then step else other) (if c then operation else otherwise) := by
  split
  · exact yes
  · exact no

theorem mono (agrees : Agrees stop Q step operation) (weaken : ∀ s, P s → Q s) :
    Agrees stop P step operation := fun s hs => agrees s (weaken s hs)

end Agrees

end Step

open Step

namespace Forest

namespace Unguarded

variable {f g : Forest} {id root : NodeId} {shape : Shape} {span : Span} {name : Name}

/-- A change of a forest on tables without guards. -/
abbrev Action (α : Type) := EStateM Stop Forest α

/-! ### Tables -/

/-- The node of a number; outside of the table there is none to read. -/
def read (f : Forest) (id : NodeId) : Except Stop Node :=
  match f.node? id with
  | some node => .ok node
  | none => .error (.fault (.unallocated id))

/-- Nodes of which the one of a number has changed; outside of the table there is none to write. -/
def write (change : Node → Node) (nodes : Array Node) (id : NodeId) : Except Stop (Array Node) :=
  if id.raw < nodes.size then .ok (nodes.modify id.raw change)
  else .error (.fault (.unallocated id))

/-- Nodes of which the listed ones have changed. -/
def writeAll (change : Node → Node) (nodes : Array Node) (ids : List NodeId) :
    Except Stop (Array Node) :=
  ids.foldlM (write change) nodes

/-- What is worked out is stored at the end. -/
def commit {α : Type} (work : Forest → Except Stop (α × Forest)) : Action α := fun f =>
  match work f with
  | .error stop => .error stop f
  | .ok (answer, g) => .ok answer g

def ask {α : Type} (question : Forest → Except Stop α) : Action α := fun f =>
  match question f with
  | .ok answer => .ok answer f
  | .error stop => .error stop f

/-- All are written unless one of them is missing. -/
theorem writeAll_eq {change : Node → Node} {nodes : Array Node} {ids : List NodeId}
    (size : nodes.size = f.size) : writeAll change nodes ids =
      match ids.find? fun id => !f.contains id with
      | some id => .error (.fault (.unallocated id))
      | none => .ok (ids.foldl (fun nodes id => nodes.modify id.raw change) nodes) := by
  induction ids generalizing nodes with
  | nil => rfl
  | cons id rest ih =>
      rw [writeAll, List.foldlM_cons, write, List.find?_cons]
      by_cases hid : id.raw < f.size
      · have hknown : f.contains id = true := contains_iff.2 hid
        rw [if_pos (size ▸ hid), hknown]
        exact ih ((Array.size_modify ..).trans size)
      · have hmissing : f.contains id = false := Bool.eq_false_iff.2 fun h => hid (contains_iff.1 h)
        rw [if_neg (size ▸ hid), hmissing]
        rfl

theorem writeAll_of_inside {change : Node → Node} {nodes : Array Node} {ids : List NodeId}
    (inside : ∀ id ∈ ids, id.raw < nodes.size) :
    writeAll change nodes ids
      = .ok (ids.foldl (fun nodes id => nodes.modify id.raw change) nodes) := by
  have hfind : (ids.find? fun id => !(Forest.mk nodes #[]).contains id) = none :=
    List.find?_eq_none.2 fun id hid => by
      rw [contains_iff.2 (show id.raw < (Forest.mk nodes #[]).size from inside id hid)]
      exact Bool.false_ne_true
  rw [writeAll_eq (f := ⟨nodes, #[]⟩) rfl, hfind]

/-! ### Rules -/

/-- Each child exists, has no owner other than `owner`, and is not among the earlier ones. -/
def checkOwnership (f : Forest) (owner : NodeId) :
    (earlier children : List NodeId) → Except Stop Unit
  | _, [] => .ok ()
  | earlier, child :: rest =>
      if !f.contains child then .error (.refused (.unknownNode child))
      else
        match read f child with
        | .error stop => .error stop
        | .ok node =>
            match node.parent.filter (· ≠ owner) with
            | some other => .error (.refused (.alreadyOwned child other))
            | none =>
                if child ∈ earlier then .error (.refused (.alreadyOwned child owner))
                else checkOwnership f owner (child :: earlier) rest

/-- The parts of a function, following at most `fuel` functions to their bases.  There are only so
many functions, so a search that needs more does not end. -/
def functionPartsF (f : Forest) : (fuel : Nat) → NodeId → Except Stop FunctionParts
  | 0, _ => .error (.fault .endless)
  | fuel + 1, id =>
      match f.node? id with
      | none => .error (.refused (.unknownNode id))
      | some node =>
          match node.shape with
          | .function name returnType parameters body =>
              .ok ⟨id, name, returnType.toOption, parameters, body.toOption, none⟩
          | .specialized base closure =>
              (functionPartsF f fuel base).map (·.through closure)
          | shape => .error (.refused (.unexpectedTag id "function" shape.tag))

def declaredName (f : Forest) (directive : NodeId) : Except Stop Name := do
  let function ← (f.declaredFunction directive).mapError Stop.refused
  let parts ← functionPartsF f (f.size + 2) function
  (f.identifierName parts.name).mapError Stop.refused

def checkMembers (f : Forest) (name : Name) : List NodeId → Except Stop Unit
  | [] => .ok ()
  | member :: rest =>
      match declaredName f member with
      | .error stop => .error stop
      | .ok found =>
          if found = name then checkMembers f name rest
          else .error (.refused (.nameMismatch member name found))

def checkContents (f : Forest) (shape : Shape) (span : Span) : Except Stop Unit :=
  match shape with
  | .overloads name members =>
      if (f.list members).isEmpty then .error (.refused (.emptyGroup name))
      else checkMembers f name (f.list members)
  | other => (f.checkContents other span).mapError Stop.refused

/-- A child is not looked at before it is known to exist. -/
theorem checkOwnership_eq (f : Forest) (owner : NodeId) (earlier children : List NodeId) :
    checkOwnership f owner earlier children
      = (f.checkOwnership owner earlier children).mapError Stop.refused := by
  induction children generalizing earlier with
  | nil => rfl
  | cons child rest ih =>
      rw [checkOwnership, Forest.checkOwnership, read, contains]
      cases f.node? child with
      | none => rfl
      | some node =>
          simp only [Option.isSome_some, Bool.not_true, Bool.false_eq_true, if_false]
          cases node.parent.filter (· ≠ owner) with
          | some other => rfl
          | none =>
              dsimp only
              split
              · rfl
              · exact ih (child :: earlier)

/-- **The search for a plain function ends,** because the base of a function that is seen through a
closure is one. -/
theorem functionPartsF_eq (ruled : f.Ruled) (fuel : Nat) (id : NodeId) :
    functionPartsF f (fuel + 2) id = (f.functionParts id).mapError Stop.refused := by
  rw [← ruled.functionPartsF_eq id fuel]
  cases hnode : f.node? id with
  | none => simp only [functionPartsF, Forest.functionPartsF, hnode, Except.mapError]
  | some node =>
      cases hshape : node.shape with
      | specialized base closure =>
          obtain ⟨below, hbelow, htag⟩ := tag?_eq_some_iff.1
            (ruled.tag?_base (shape?_eq_some_iff.2 ⟨node, hnode, hshape⟩))
          obtain ⟨name, returnType, parameters, body, hfunction⟩ := eq_function_of_tag htag
          simp only [functionPartsF, Forest.functionPartsF, hnode, hshape, hbelow, hfunction]
          rfl
      | _ => simp only [functionPartsF, Forest.functionPartsF, hnode, hshape, Except.mapError]

/-- **So is the name that a declaration declares.** -/
theorem declaredName_eq (ruled : f.Ruled) (directive : NodeId) :
    declaredName f directive = (f.declaredName directive).mapError Stop.refused := by
  rw [declaredName, Forest.declaredName, Question.mapError_bind]
  refine congrArg (_ >>= ·) (funext fun function => ?_)
  rw [Question.mapError_bind, functionPartsF_eq ruled]

theorem checkMembers_eq (ruled : f.Ruled) (name : Name) (listed : List NodeId) :
    checkMembers f name listed = (f.checkMembers name listed).mapError Stop.refused := by
  induction listed with
  | nil => rfl
  | cons member rest ih =>
      rw [checkMembers, Forest.checkMembers, declaredName_eq ruled]
      cases f.declaredName member with
      | error refusal => rfl
      | ok found =>
          dsimp only [Except.mapError]
          split
          · exact ih
          · rfl

/-- **The rules are looked at alike.** -/
theorem checkContents_eq (ruled : f.Ruled) (shape : Shape) (span : Span) :
    checkContents f shape span = (f.checkContents shape span).mapError Stop.refused := by
  cases shape with
  | overloads name members =>
      rw [checkContents, Forest.checkContents]
      split
      · rfl
      · exact checkMembers_eq ruled name _
  | _ => rfl

/-- A node of a shape can be made; it will have the answered number. -/
def checkNode (f : Forest) (shape : Shape) (span : Span) : Except Stop NodeId := do
  let place ← (nextPlace f.size).mapError Stop.refused
  checkOwnership f ⟨place⟩ [] (shape.children f.lists)
  checkContents f shape span
  return ⟨place⟩

theorem checkNode_eq (ruled : f.Ruled) (shape : Shape) (span : Span) :
    checkNode f shape span = (f.checkNode shape span).mapError Stop.refused := by
  rw [checkNode, Forest.checkNode, checkContents_eq ruled]
  cases nextPlace f.size with
  | error refusal => rfl
  | ok place =>
      dsimp only
      change (checkOwnership f ⟨place⟩ [] (shape.children f.lists) >>= _) = _
      rw [checkOwnership_eq]
      cases f.checkOwnership ⟨place⟩ [] (shape.children f.lists) with
      | error refusal => rfl
      | ok _ => cases f.checkContents shape span <;> rfl

/-! ### Making nodes -/

/-- Nodes of which the listed ones are owned by `owner`. -/
def adopt (owner : NodeId) : Array Node → List NodeId → Except Stop (Array Node) :=
  writeAll fun node => { node with parent := some owner }

/-- The number of a node more, and the forest in which it owns its children. -/
def make (shape : Shape) (span : Span) (donor : Option NodeId) (f : Forest) :
    Except Stop (NodeId × Forest) := do
  let id ← checkNode f shape span
  let nodes ← adopt id (f.nodes.push (Node.fresh shape span donor)) (shape.children f.lists)
  return (id, ⟨nodes, f.lists⟩)

def insert (shape : Shape) (span : Span) : Action NodeId := commit (make shape span none)

def insertDerived (shape : Shape) (donor : NodeId) : Action NodeId := fun f =>
  match f.node? donor with
  | none => .error (.refused (.unknownNode donor)) f
  | some node => commit (make shape node.span (some donor)) f

def groupFunctions (name : Name) (members : List NodeId) : Action NodeId :=
  match members with
  | [] => throw (.refused (.emptyGroup name))
  | first :: _ => do
      let segment ← heed Stop.refused (storeList members "overload members")
      insertDerived (.overloads name segment) first

/-- **A node is made over children that exist.** -/
theorem make_eq (ruled : f.Ruled) (shape : Shape) (span : Span) (donor : Option NodeId) :
    make shape span donor f = ((f.checkNode shape span).mapError Stop.refused).map fun id =>
      (id, f.add shape span donor) := by
  rw [make, checkNode_eq ruled]
  cases hid : f.checkNode shape span with
  | error refusal => rfl
  | ok id =>
      obtain ⟨admits, rfl⟩ := checkNode_eq_ok_iff.1 hid
      have inside : ∀ child ∈ shape.children f.lists,
          child.raw < (f.nodes.push (Node.fresh shape span donor)).size := fun child hc => by
        rw [Array.size_push]
        exact Nat.lt_succ_of_lt (admits.free child hc).lt_size
      change (adopt _ _ _ >>= fun nodes => pure _) = _
      rw [adopt, writeAll_of_inside inside]
      rfl

theorem insert_agrees (shape : Shape) (span : Span) :
    Agrees Stop.refused Ruled (Forest.insert shape span) (insert shape span) := by
  intro f ruled
  rw [insert, commit, make_eq ruled, heed, Forest.insert]
  cases f.checkNode shape span <;> rfl

theorem insertDerived_agrees (shape : Shape) (donor : NodeId) :
    Agrees Stop.refused Ruled (Forest.insertDerived shape donor) (insertDerived shape donor) := by
  intro f ruled
  rw [insertDerived, heed, Forest.insertDerived]
  cases f.node? donor with
  | none => rfl
  | some node =>
      dsimp only
      rw [commit, make_eq ruled]
      cases f.checkNode shape node.span <;> rfl

/-- **Groups are made alike.** -/
theorem groupFunctions_agrees (name : Name) (members : List NodeId) :
    Agrees Stop.refused Ruled (Forest.groupFunctions name members)
      (groupFunctions name members) := by
  cases members with
  | nil => exact fun _ _ => rfl
  | cons first rest =>
      refine Agrees.bind (Agrees.self _) (fun {f segment g} ruled run => ?_) fun segment =>
        insertDerived_agrees _ first
      obtain ⟨rfl, -⟩ := storeList_eq_ok_iff.1 run
      exact ruled.moves ((Moves.refl f).act (Act.keep _))

end Unguarded

end Forest

end SyntaxForest
