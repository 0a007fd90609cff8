/-
**Acts.**

Whatever is done to a forest from outside comes down to three acts: a sequence is kept, a node is
made over children without an owner, or the decorations of a node change.  A property of forests
that the acts keep is kept by every edit, whether the edit is refused or not.

Main definitions:

* `Node.Redecorated` — what a decoration may change in a node;
* `Forest.Act`, `Forest.Acts` — an act, with a rule for the shapes of new nodes, and several of
  them.

Main results:

* `Node.Redecorated.tag`, `Node.Redecorated.children` — the sort and the children of a node are
  never decorations;
* `Forest.Acts.carries`, `Edit.acts_after` — **what makes nodes is acts, and so is an edit.**
-/

import SyntaxForest.Proofs.Forest.Carrying
import SyntaxForest.Proofs.Forest.Cells
import SyntaxForest.Proofs.Forest.Store

set_option relaxedAutoImplicit false
set_option autoImplicit false

namespace SyntaxForest

/-! ### Decorations -/

/-- A node with other decorations. -/
structure Node.Redecorated (old new : Node) : Prop where
  /-- The contents stay, except that a literal may change its value within its kind. -/
  shape : new.shape = old.shape ∨
    ∃ a b, old.shape = .literal a ∧ new.shape = .literal b ∧ a.kind = b.kind
  span : new.span = old.span
  parent : new.parent = old.parent
  donor : new.donor = old.donor
  parenthesized : old.parenthesized = true → new.parenthesized = true
  errors : old.errors <+: new.errors
  /-- What is recorded of a function is recorded of functions only. -/
  info : new.info.isSome = old.info.isSome
  locals : old.locals.length ≤ new.locals.length
  /-- What is written once stays. -/
  settled : ∀ {cell value}, old.read cell = some value → new.read cell = some value

namespace Node

variable {old new : Node} {id : NodeId}

theorem Redecorated.tag (h : old.Redecorated new) : new.shape.tag = old.shape.tag := by
  rcases h.shape with hs | ⟨a, b, ha, hb, hkind⟩
  · rw [hs]
  · rw [ha, hb]
    exact ((Literal.tag_eq_iff a b).2 hkind).symm

theorem Redecorated.children (h : old.Redecorated new) (store : Array NodeId) :
    new.shape.children store = old.shape.children store := by
  rcases h.shape with hs | ⟨a, b, ha, hb, _⟩
  · rw [hs]
  · rw [ha, hb]
    rfl

theorem Redecorated.segments (h : old.Redecorated new) :
    new.shape.segments = old.shape.segments := by
  rcases h.shape with hs | ⟨a, b, ha, hb, _⟩
  · rw [hs]
  · rw [ha, hb]
    rfl

theorem settled_of_eq (type : new.type = old.type) (nativeType : new.nativeType = old.nativeType)
    (operation : new.operation = old.operation) (info : new.info = old.info) {cell : Cell}
    {value : Decoration} (held : old.read cell = some value) : new.read cell = some value := by
  rwa [read_congr type nativeType operation info]

/-- A write of a cell is a decoration. -/
theorem Write.redecorated (write : Write) (h : write.rule id old = .ok new) :
    old.Redecorated new := by
  obtain ⟨-, -, hbare⟩ := rule_writes h
  have hshape : new.shape = old.shape := (congrArg Node.shape hbare :)
  have hspan : new.span = old.span := (congrArg Node.span hbare :)
  have hparent : new.parent = old.parent := (congrArg Node.parent hbare :)
  have hdonor : new.donor = old.donor := (congrArg Node.donor hbare :)
  have hparenthesized : new.parenthesized = old.parenthesized :=
    (congrArg Node.parenthesized hbare :)
  have herrors : new.errors = old.errors := (congrArg Node.errors hbare :)
  have hinfo := congrArg (fun n => n.info.isSome) hbare
  simp only [bare, Option.isSome_map] at hinfo
  have hlocals := congrArg (fun n => n.locals.length) hbare
  simp only [locals_bare, List.length_map] at hlocals
  exact ⟨Or.inl hshape, hspan, hparent, hdonor, fun h => hparenthesized.trans h,
    herrors ▸ List.prefix_refl _, hinfo, Nat.le_of_eq hlocals.symm, settled h⟩

theorem setParenthesized_redecorated (h : old.setParenthesized = .ok new) :
    old.Redecorated new := by
  cases h
  exact ⟨Or.inl rfl, rfl, rfl, rfl, fun _ => rfl, List.prefix_refl _, rfl, Nat.le_refl _,
    settled_of_eq rfl rfl rfl rfl⟩

theorem setType_redecorated {type : TypeId} (h : old.setType type id = .ok new) :
    old.Redecorated new := Write.redecorated (.type type) h

theorem addError_redecorated {error : NodeError} (h : old.addError error = .ok new) :
    old.Redecorated new := by
  cases h
  exact ⟨Or.inl rfl, rfl, rfl, rfl, fun h => h, List.prefix_append _ _, rfl, Nat.le_refl _,
    settled_of_eq rfl rfl rfl rfl⟩

theorem setNativeType_redecorated {type : TypeId} (h : old.setNativeType type id = .ok new) :
    old.Redecorated new := Write.redecorated (.nativeType type) h

theorem setOperation_redecorated {operation : OperationId}
    (h : old.setOperation operation id = .ok new) : old.Redecorated new :=
  Write.redecorated (.operation operation) h

theorem setLiteral_redecorated {value : Literal} (h : old.setLiteral value id = .ok new) :
    old.Redecorated new := by
  unfold setLiteral at h
  split at h
  · next current hshape =>
      split at h
      · next hkind =>
          cases h
          exact ⟨Or.inr ⟨current, value, hshape, rfl, hkind⟩, rfl, rfl, rfl, fun h => h,
            List.prefix_refl _, rfl, Nat.le_refl _, settled_of_eq rfl rfl rfl rfl⟩
      · cases h
  · cases h

theorem setIdentifier_redecorated {name : Name} (h : old.setIdentifier name id = .ok new) :
    old.Redecorated new := Write.redecorated (.identifier name) h

theorem setLocalType_redecorated {slot : LocalSlot} {type : TypeId}
    (h : old.setLocalType slot type id = .ok new) : old.Redecorated new :=
  Write.redecorated (.localType slot type) h

/-- More local variables are a decoration. -/
theorem redecorated_locals {info : FunctionInfo} (h : old.requireInfo id = .ok info)
    (more : List TypeId) :
    old.Redecorated { old with info := some { info with locals := info.locals ++ more } } := by
  have hinfo := requireInfo_eq_ok_iff.1 h
  refine ⟨Or.inl rfl, rfl, rfl, rfl, fun h => h, List.prefix_refl _, ?_, ?_, ?_⟩
  · rw [hinfo]
    rfl
  · rw [Node.locals_of_info hinfo]
    exact (List.prefix_append _ _).length_le
  · intro cell value held
    cases cell with
    | identifier =>
        simp only [read, hinfo] at held
        exact held
    | localType slot =>
        simp only [read, Node.locals_of_info hinfo] at held
        obtain ⟨type, htype, hwritten⟩ := Option.bind_eq_some_iff.1 held
        obtain ⟨hslot, -⟩ := List.getElem?_eq_some_iff.1 htype
        refine Option.bind_eq_some_iff.2 ⟨type, ?_, hwritten⟩
        exact (List.getElem?_append_left hslot).trans htype
    | _ => exact held

theorem allocateLocal_redecorated {type : TypeId} {slot : LocalSlot}
    (h : old.allocateLocal type id = .ok (slot, new)) : old.Redecorated new := by
  obtain ⟨info, hinfo, h⟩ := Question.bind_eq_ok_iff.1 h
  obtain ⟨place, _, h⟩ := Question.bind_eq_ok_iff.1 h
  cases h
  exact redecorated_locals hinfo [type]

theorem reserveLocals_redecorated {count : Nat} (h : old.reserveLocals count id = .ok new) :
    old.Redecorated new := by
  obtain ⟨info, hinfo, h⟩ := Question.bind_eq_ok_iff.1 h
  cases h
  exact redecorated_locals hinfo _

end Node

namespace Forest

/-! ### Acts -/

/-- One act; `allowed` says which shapes a new node may have. -/
inductive Act (allowed : Forest → Shape → Prop) (f : Forest) : Forest → Prop
  | keep (ids : List NodeId) : Act allowed f (f.keep ids)
  /-- A node is made; it has the span of the node it is derived from. -/
  | add {shape : Shape} {span : Span} {donor : Option NodeId} (admits : f.Admits shape span)
      (shapeAllowed : allowed f shape)
      (origin : ∀ d, donor = some d → ∃ node, f.node? d = some node ∧ node.span = span) :
      Act allowed f (f.add shape span donor)
  | decorate {id : NodeId} {old new : Node} (here : f.node? id = some old)
      (redecorated : old.Redecorated new) : Act allowed f (f.replace id new)

/-- Several acts in a row. -/
inductive Acts (allowed : Forest → Shape → Prop) (f : Forest) : Forest → Prop
  | refl : Acts allowed f f
  | tail {g h : Forest} (acts : Acts allowed f g) (act : Act allowed g h) :
      Acts allowed f h

variable {allowed : Forest → Shape → Prop} {f g h : Forest}

theorem Act.acts (act : Act allowed f g) : Acts allowed f g := Acts.refl.tail act

theorem Acts.trans (first : Acts allowed f g) (second : Acts allowed g h) :
    Acts allowed f h := by
  induction second with
  | refl => exact first
  | tail _ act ih => exact ih.tail act

theorem Acts.preserves {P : Forest → Prop} (step : ∀ {f g}, Act allowed f g → P f → P g)
    (acts : Acts allowed f g) (start : P f) : P g := by
  induction acts with
  | refl => exact start
  | tail _ act ih => exact step act ih

/-- Acts are acts under a rule that allows more. -/
theorem Acts.mono {allowed' : Forest → Shape → Prop} (acts : Acts allowed f g)
    (more : ∀ f shape, allowed f shape → allowed' f shape) : Acts allowed' f g := by
  induction acts with
  | refl => exact Acts.refl
  | tail _ act ih =>
      refine ih.tail ?_
      cases act with
      | keep ids => exact Act.keep ids
      | add admits shapeAllowed origin => exact Act.add admits (more _ _ shapeAllowed) origin
      | decorate here redecorated => exact Act.decorate here redecorated

/-! ### Edits are acts -/

theorem Acts.carries (allowed : Forest → Shape → Prop) : Carries allowed (Acts allowed) where
  refl _ := Acts.refl
  trans := Acts.trans
  keep _ ids := (Act.keep ids).acts
  add admits shapeAllowed origin := (Act.add admits shapeAllowed origin).acts

theorem acts_decorateWith {α : Type} {id : NodeId} {rule : Node → Except Refusal (α × Node)}
    (redecorated : ∀ {old new answer}, rule old = .ok (answer, new) → old.Redecorated new) :
    Acts allowed f (stateOf (decorateWith id rule f)) := by
  unfold decorateWith
  split
  · exact Acts.refl
  · next old hold =>
      split
      · exact Acts.refl
      · next answer new hnew => exact (Act.decorate hold (redecorated hnew)).acts

theorem eq_ok_of_rule {ruled : Except Refusal Node} {answer : Unit} {new : Node}
    (h : (ruled.map fun node => ((), node)) = .ok (answer, new)) : ruled = .ok new := by
  obtain ⟨node, hnode, heq⟩ := Question.map_eq_ok_iff.1 h
  cases heq
  exact hnode

theorem acts_decorate {id : NodeId} {rule : Node → Except Refusal Node}
    (redecorated : ∀ {old new}, rule old = .ok new → old.Redecorated new) :
    Acts allowed f (stateOf (decorate id rule f)) :=
  acts_decorateWith fun hr => redecorated (eq_ok_of_rule hr)

end Forest

namespace Edit

open Forest

/-- The shapes of the nodes that an edit may make are allowed once they are admitted. -/
def Allowed (allowed : Forest → Shape → Prop) (f : Forest) : Edit → Prop
  | insert shape span => f.Admits shape span → allowed f shape
  | insertDerived shape _ => ∀ {span}, f.Admits shape span → allowed f shape
  | specialize base closure =>
      ∀ {span}, f.Admits (.specialized base closure) span → allowed f (.specialized base closure)
  | groupFunctions name members => members.length ≤ maxListLength → ∀ {span},
      (f.keep members).Admits (.overloads name ⟨f.lists.size, members.length⟩) span →
        allowed (f.keep members) (.overloads name ⟨f.lists.size, members.length⟩)
  | _ => True

theorem after_eq_stateOf (f : Forest) (edit : Edit) : after f edit = stateOf (edit.run f) := by
  unfold after
  cases edit.run f <;> rfl

/-- **An edit is a few acts.** -/
theorem acts_after {allowed : Forest → Shape → Prop} {f : Forest} {edit : Edit}
    (shapeAllowed : edit.Allowed allowed f) : Acts allowed f (after f edit) := by
  rw [after_eq_stateOf]
  have carries := Acts.carries allowed
  cases edit with
  | insert shape span =>
      rw [run, Step.stateOf_map]
      exact carries.insert shapeAllowed
  | insertDerived shape donor =>
      rw [run, Step.stateOf_map]
      exact carries.insertDerived shapeAllowed
  | storeList ids what =>
      rw [run, Step.stateOf_map]
      exact carries.storeList ids what
  | setParenthesized node =>
      rw [run, Step.stateOf_map]
      exact acts_decorate Node.setParenthesized_redecorated
  | setType node type =>
      rw [run, Step.stateOf_map]
      exact acts_decorate Node.setType_redecorated
  | addError node error =>
      rw [run, Step.stateOf_map]
      exact acts_decorate Node.addError_redecorated
  | setNativeType node type =>
      rw [run, Step.stateOf_map]
      exact acts_decorate Node.setNativeType_redecorated
  | setOperation node operation =>
      rw [run, Step.stateOf_map]
      exact acts_decorate Node.setOperation_redecorated
  | setLiteral node value =>
      rw [run, Step.stateOf_map]
      exact acts_decorate Node.setLiteral_redecorated
  | setIdentifier function name =>
      rw [run, Step.stateOf_map]
      exact acts_decorate Node.setIdentifier_redecorated
  | allocateLocal function type =>
      rw [run, Step.stateOf_map]
      exact acts_decorateWith Node.allocateLocal_redecorated
  | setLocalType function slot type =>
      rw [run, Step.stateOf_map]
      exact acts_decorate Node.setLocalType_redecorated
  | specialize base closure =>
      rw [run, Step.stateOf_map]
      exact carries.insertDerived shapeAllowed
  | groupFunctions name members =>
      rw [run, Step.stateOf_map]
      exact carries.groupFunctions shapeAllowed

end Edit

end SyntaxForest
