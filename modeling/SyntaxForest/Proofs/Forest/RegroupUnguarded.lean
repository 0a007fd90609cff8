/-
**Regrouping without guards.**

Regrouping writes the most: it takes the owners of all directives away, makes groups, gives owners
back, and when it is refused it undoes what it has done.  On tables that do not forgive all of this
has to stay inside them, and it does, with one exception that regrouping names itself: segments may
give a document children that do not exist, and then there is nothing to take an owner from.

Main definitions:

* `Forest.Unguarded.replaceShape`, `Forest.Unguarded.rollback` — the writes;
* `Forest.Unguarded.regroupDocument` — regrouping with them.

Main results:

* `Forest.Unguarded.replaceShape_agrees` — contents are exchanged alike;
* `Forest.Unguarded.rollback_eq` — falling back to a mark stays inside the tables;
* `Forest.Unguarded.regroupDocument_agrees` — **documents are regrouped alike.**
-/

import SyntaxForest.Proofs.Forest.Unguarded

set_option relaxedAutoImplicit false
set_option autoImplicit false

namespace SyntaxForest

open Step

namespace Forest

namespace Unguarded

variable {f g : Forest} {id root : NodeId} {members : Name → List NodeId}

/-! ### Exchanging the contents of a node -/

/-- Nodes of which those of the listed ones that `owner` owns are owned by none. -/
def release (owner : NodeId) : Array Node → List NodeId → Except Stop (Array Node) :=
  writeAll fun node => if node.parent = some owner then { node with parent := none } else node

/-- Nodes of which one has another shape: it gives up its children and owns those of the shape. -/
def reshape (f : Forest) (id : NodeId) (node : Node) (shape : Shape) :
    Except Stop (Array Node) := do
  let nodes ← release id f.nodes (f.childrenOf node)
  let nodes ← adopt id nodes (shape.children f.lists)
  write (fun node => { node with shape := shape }) nodes id

def checkReplacement (f : Forest) (id : NodeId) (shape : Shape) : Except Stop Unit := do
  checkOwnership f id [] (shape.children f.lists)
  let node ← read f id
  checkContents f shape node.span

def replaceShape (id : NodeId) (shape : Shape) : Action Unit := fun f =>
  match f.node? id with
  | none => .error (.refused (.unknownNode id)) f
  | some old =>
      match checkReplacement f id shape with
      | .error stop => .error stop f
      | .ok () =>
          match reshape f id old shape with
          | .error stop => .error stop f
          | .ok nodes => .ok () ⟨nodes, f.lists⟩

theorem checkReplacement_eq {node : Node} {shape : Shape} (ruled : f.Ruled)
    (here : f.node? id = some node) : checkReplacement f id shape
      = (f.checkReplacement id node shape).mapError Stop.refused := by
  rw [checkReplacement, Forest.checkReplacement, checkOwnership_eq, read, here]
  cases f.checkOwnership id [] (shape.children f.lists) with
  | error refusal => rfl
  | ok _ => exact checkContents_eq ruled shape node.span

/-- What is missing among the former children is missed. -/
theorem reshape_eq {node : Node} {shape : Shape} (here : f.node? id = some node)
    (accepts : f.Accepts id node shape) : reshape f id node shape =
      match (f.childrenOf node).find? fun child => !f.contains child with
      | some child => .error (.fault (.unallocated child))
      | none => .ok (f.reshape id node shape).nodes := by
  rw [reshape, release, writeAll_eq (f := f) rfl]
  cases (f.childrenOf node).find? fun child => !f.contains child with
  | some child => rfl
  | none =>
      change (adopt id (Forest.release id f.nodes (f.childrenOf node)) _ >>= _) = _
      have inside : ∀ child ∈ shape.children f.lists,
          child.raw < (Forest.release id f.nodes (f.childrenOf node)).size := fun child hc => by
        rw [size_release]
        exact (accepts.free child hc).lt_size
      rw [adopt, writeAll_of_inside inside]
      change write _ (Forest.adopt id (Forest.release id f.nodes (f.childrenOf node)) _) id = _
      rw [write, if_pos]
      · rfl
      · rw [size_adopt, size_release]
        exact lt_size_of_node? here

/-- **Contents are exchanged alike.** -/
theorem replaceShape_agrees (id : NodeId) (shape : Shape) :
    Agrees Stop.ofFailure Ruled (Forest.replaceShape id shape) (replaceShape id shape) := by
  intro f ruled
  rw [replaceShape, heed, Forest.replaceShape]
  cases here : f.node? id with
  | none => rfl
  | some node =>
      dsimp only
      rw [checkReplacement_eq ruled here]
      cases hcheck : f.checkReplacement id node shape with
      | error refusal => rfl
      | ok _ =>
          rw [reshape_eq here (checkReplacement_eq_ok_iff.1 hcheck)]
          dsimp only [Except.mapError]
          cases (f.childrenOf node).find? fun child => !f.contains child <;> rfl

/-! ### Dropping what was made since a mark -/

/-- Nodes after the `extra` last of `kept + extra` nodes have given up their children. -/
def releaseLast (lists : Array NodeId) (kept : Nat) :
    (extra : Nat) → Array Node → Except Stop (Array Node)
  | 0, nodes => .ok nodes
  | extra + 1, nodes =>
      match nodes[kept + extra]? with
      | none => .error (.fault (.unallocated ⟨kept + extra⟩))
      | some node =>
          -- a child that does not exist is passed over, so this looks before it writes
          releaseLast lists kept extra
            (Forest.release ⟨kept + extra⟩ nodes (node.shape.children lists))

/-- The forest without what was made since a mark. -/
def rollback (f : Forest) (m : Mark) : Except Stop Forest := do
  let nodes ← releaseLast f.lists m.nodes (f.nodes.size - m.nodes) f.nodes
  return ⟨nodes.take m.nodes, f.lists.take m.lists⟩

theorem releaseLast_eq {kept extra : Nat} {nodes : Array Node} (lists : Array NodeId)
    (inside : kept + extra ≤ nodes.size) :
    releaseLast lists kept extra nodes = .ok (Forest.releaseLast lists kept extra nodes) := by
  induction extra generalizing nodes with
  | zero => rfl
  | succ extra ih =>
      have here : nodes[kept + extra]? = some nodes[kept + extra] :=
        Array.getElem?_eq_getElem inside
      rw [releaseLast, Forest.releaseLast, here]
      exact ih (by rw [size_release]; exact Nat.le_of_succ_le inside)

/-- **Falling back to a mark stays inside the tables.** -/
theorem rollback_eq (f : Forest) (m : Mark) : rollback f m = .ok (f.rollback m) := by
  rw [rollback, Forest.rollback]
  rcases Nat.le_total m.nodes f.nodes.size with le | le
  · rw [releaseLast_eq f.lists (Nat.le_of_eq (Nat.add_sub_of_le le))]
    rfl
  · rw [Nat.sub_eq_zero_of_le le]
    rfl

/-! ### Groups -/

/-- The fate of a directive, its group made if it is the first member. -/
def regroupOne (members : Name → List NodeId) (directive : NodeId) : Action Fate := do
  let tag ← ask fun f => (read f directive).map (·.shape.tag)
  if tag ≠ .funDirective then return .kept directive
  let name ← ask (declaredName · directive)
  match members name with
  | [] => return .kept directive
  | [_] => return .kept directive
  | first :: second :: rest =>
      if first = directive then
        return .grouped (← groupFunctions name (first :: second :: rest))
      else return .merged

def regroupEach (members : Name → List NodeId) : List NodeId → Action (List Fate)
  | [] => return []
  | directive :: rest => do
      let fate ← regroupOne members directive
      let fates ← regroupEach members rest
      return fate :: fates

def regroup (root : NodeId) (directives : List NodeId) (members : Name → List NodeId) :
    Action (List NodeId) := do
  replaceShape root (.document Segment.empty)
  let fates ← regroupEach members directives
  let segment ← heed Stop.refused (storeList (Fate.directives fates) "directives")
  replaceShape root (.document segment)
  return Fate.groups fates

/-- Drops what was made since a mark and gives a document its former directives. -/
def restore (root : NodeId) (former : Segment) (m : Mark) : Action Unit := fun f =>
  match rollback f m with
  | .error stop => .error stop f
  | .ok f => replaceShape root (.document former) f

/-- Rebuilds the directives of a document, or restores them if a step is refused. -/
def regroupOrRestore (root : NodeId) (former : Segment) (members : Name → List NodeId) :
    Action (List NodeId) := fun f =>
  match regroup root (f.list former) members f with
  | .error (.refused refusal) g =>
      match restore root former f.mark g with
      | .ok () g => .error (.refused refusal) g
      | .error stop g => .error stop g
  | result => result

/-- The names that directives declare functions with, each with its directive, in order. -/
def declaredNames (f : Forest) : List NodeId → Except Stop (List (Name × NodeId))
  | [] => .ok []
  | directive :: rest =>
      match read f directive with
      | .error stop => .error stop
      | .ok node =>
          if node.shape.tag = .funDirective then
            match declaredName f directive with
            | .error stop => .error stop
            | .ok name => (declaredNames f rest).map ((name, directive) :: ·)
          else declaredNames f rest

/-- Groups the declarations of a document by name; the answer lists the new groups. -/
def regroupDocument (root : NodeId) : Action (List NodeId) := do
  let former ← ask fun f => (f.directivesOf root).mapError Stop.refused
  let declared ← ask fun f => declaredNames f (f.list former)
  if groupsNeeded declared then regroupOrRestore root former (membersOf declared)
  else return []

/-! ### The same groups -/

/-- The sort of a directive is asked for alike. -/
theorem tagOf_agrees (P : Forest → Prop) (directive : NodeId) :
    Agrees Stop.ofFailure P (tagOf directive)
      (ask fun f => (read f directive).map (·.shape.tag)) := by
  intro f _
  rw [ask, heed, tagOf, read, tag?]
  cases f.node? directive <;> rfl

theorem ask_agrees {α : Type} {P : Forest → Prop} {question : Forest → Except Refusal α}
    {asked : Forest → Except Stop α}
    (same : ∀ f, P f → asked f = (question f).mapError Stop.refused) :
    Agrees Stop.ofFailure P (Forest.ask question) (ask asked) := by
  intro f hf
  rw [ask, heed, Forest.ask, same f hf]
  cases question f <;> rfl

/-- Among attempts an action agrees with the same operation. -/
theorem toAttempt_agrees {α : Type} {P : Forest → Prop} {action : Forest.Action α}
    {operation : Action α} (agrees : Agrees Stop.refused P action operation) :
    Agrees Stop.ofFailure P action.toAttempt operation := by
  intro f hf
  rw [agrees f hf, heed, heed, Action.toAttempt]
  cases action f <;> rfl

theorem ruled_of_carried {α : Type} {attempt : Attempt α} (carried : attempt.Carried Moves)
    {answer : α} (ruled : f.Ruled) (run : attempt f = .ok answer g) : g.Ruled := by
  have moves := carried f
  rw [run] at moves
  exact ruled.moves moves

theorem regroupOne_agrees (members : Name → List NodeId) (directive : NodeId) :
    Agrees Stop.ofFailure Ruled (Forest.regroupOne members directive)
      (regroupOne members directive) := by
  have carries := (Moves.regroups directive).toCarries
  refine Agrees.bind (tagOf_agrees Ruled directive)
    (ruled_of_carried (carries.tagOf directive)) fun tag => ?_
  refine Agrees.ite (Agrees.pure _) ?_
  refine Agrees.bind (ask_agrees fun f ruled => declaredName_eq ruled directive)
    (ruled_of_carried (carries.ask _)) fun name => ?_
  rcases members name with _ | ⟨first, _ | ⟨second, rest⟩⟩
  · exact Agrees.pure _
  · exact Agrees.pure _
  · exact Agrees.ite ((toAttempt_agrees (groupFunctions_agrees name _)).last _) (Agrees.pure _)

theorem regroupEach_agrees (members : Name → List NodeId) (listed : List NodeId) :
    Agrees Stop.ofFailure Ruled (Forest.regroupEach members listed)
      (regroupEach members listed) := by
  induction listed with
  | nil => exact Agrees.pure _
  | cons directive rest ih =>
      have carries := (Moves.regroups directive).toCarries
      refine Agrees.bind (regroupOne_agrees members directive)
        (ruled_of_carried (carries.regroupOne members directive)) fun fate => ?_
      exact ih.last (fate :: ·)

/-! ### The same directives -/

/-- A forest keeps its promises and has a document at a number. -/
def HasDocument (root : NodeId) (f : Forest) : Prop := f.Ruled ∧ f.tag? root = some .document

namespace HasDocument

theorem moves (document : HasDocument root f) (moves : f.Moves g) : HasDocument root g :=
  ⟨document.1.moves moves, moves.tag? document.2⟩

theorem kept {α : Type} {attempt : Attempt α} {answer : α} (document : HasDocument root f)
    (moves : f.Moves (stateOf (attempt f))) (run : attempt f = .ok answer g) :
    HasDocument root g := by
  rw [run] at moves
  exact document.moves moves

end HasDocument

theorem regroup_agrees (root : NodeId) (listed : List NodeId) (members : Name → List NodeId) :
    Agrees Stop.ofFailure (HasDocument root) (Forest.regroup root listed members)
      (regroup root listed members) := by
  have regroups := Moves.regroups root
  have replaced : ∀ segment, Agrees Stop.ofFailure (HasDocument root)
      (Forest.replaceShape root (.document segment)) (replaceShape root (.document segment)) :=
    fun segment => (replaceShape_agrees root _).mono fun _ document => document.1
  refine Agrees.bind (R := fun _ => HasDocument root) (replaced _)
    (fun document => document.kept (regroups.replaceShape document.2 _)) fun _ => ?_
  refine Agrees.bind (R := fun _ => HasDocument root)
    ((regroupEach_agrees members listed).mono fun _ document => document.1)
    (fun {f _ _} document => document.kept (regroups.toCarries.regroupEach members listed f))
    fun fates => ?_
  refine Agrees.bind (R := fun _ => HasDocument root) (toAttempt_agrees (Agrees.self _))
    (fun {f _ _} document =>
      document.kept (Carries.toAttempt (fun _ => regroups.toCarries.storeList _ _) f))
    fun segment => ?_
  exact (replaced segment).last _

/-- **A regrouping that is refused is undone alike.** -/
theorem regroupOrRestore_agrees (root : NodeId) (former : Segment)
    (members : Name → List NodeId) :
    Agrees Stop.ofFailure (HasDocument root) (Forest.regroupOrRestore root former members)
      (regroupOrRestore root former members) := by
  intro f document
  have hmoves := (Moves.regroups root).regroup members document.2 (f.list former)
  rw [regroupOrRestore, regroup_agrees root _ members f document, heed, heed,
    Forest.regroupOrRestore]
  cases hr : Forest.regroup root (f.list former) members f with
  | ok groups g => rfl
  | error failure g =>
      rw [hr] at hmoves
      cases failure with
      | fault found => rfl
      | refused refusal =>
          have ruled : (g.rollback f.mark).Ruled :=
            document.1.moves ((Moves.refl f).rollback hmoves)
          dsimp only [Stop.ofFailure]
          rw [restore, rollback_eq]
          dsimp only
          rw [replaceShape_agrees root _ _ ruled, heed]
          cases Forest.replaceShape root (.document former) (g.rollback f.mark) <;> rfl

theorem declaredNames_eq (ruled : f.Ruled) (listed : List NodeId) :
    declaredNames f listed = (f.declaredNames listed).mapError Stop.ofFailure := by
  induction listed with
  | nil => rfl
  | cons directive rest ih =>
      rw [declaredNames, Forest.declaredNames, read, tag?]
      cases f.node? directive with
      | none => rfl
      | some node =>
          dsimp only [Option.map_some]
          split
          · rw [declaredName_eq ruled, ih]
            cases f.declaredName directive with
            | error refusal => rfl
            | ok name => cases f.declaredNames rest <;> rfl
          · exact ih

/-- **Documents are regrouped alike,** whatever the node is and whatever its directives are. -/
theorem regroupDocument_agrees (root : NodeId) :
    Agrees Stop.ofFailure Ruled (Forest.regroupDocument root) (regroupDocument root) := by
  refine Agrees.bind (R := fun _ => HasDocument root)
    (ask_agrees fun f _ => rfl) (fun {f former g} ruled run => ?_) fun former => ?_
  · obtain ⟨hformer, rfl⟩ := ask_eq_ok_iff.1 run
    obtain ⟨node, hnode, hshape⟩ := directivesOf_eq_ok_iff.1 hformer
    exact ⟨ruled, by rw [tag?_of_node? hnode, hshape]; rfl⟩
  · refine Agrees.bind (R := fun _ => HasDocument root) (fun f document => ?_)
      (fun {f declared g} document run => ?_) fun declared => ?_
    · rw [ask, declaredNames_eq document.1]
      unfold heed
      dsimp only
      cases f.declaredNames (f.list former) <;> rfl
    · split at run
      · cases run
        exact document
      · cases run
    · exact Agrees.ite (regroupOrRestore_agrees root former _) (Agrees.pure _)

end Unguarded

end Forest

end SyntaxForest
