/-
**What is written once.**

Five decorations of a node are written once: its type, the type that it defines, the operation that
it stands for, the unique name of a function and the types of its local variables.  They are kept in
different fields and do not agree on what stands for nothing written yet: a type or a name of its
own in some, no value at all in others.  Here they are all cells that hold a value or none, and a
write of any of them is the same: it needs the cell, it needs that the cell holds no other value,
and it touches no other cell.

Main definitions:

* `Node.Cell`, `Node.HasCell`, `Node.read` — the cells of a node, and what they hold;
* `Decoration`, `Decoration.written?` — what can be written, and whether anything is;
* `Node.Write`, `Node.Write.rule` — the writes;
* `Node.bare` — a node without what its cells hold.

Main results:

* `Node.Write.exists_rule_iff` — **when a write is allowed**;
* `Node.Write.rule_writes` — **what it does**;
* `Node.Write.settled` — no write replaces what a cell holds.
-/

import SyntaxForest.Proofs.Forest.Lookup
import SyntaxForest.Proofs.Outcome

set_option relaxedAutoImplicit false
set_option autoImplicit false

namespace SyntaxForest

/-- What can be written into a cell. -/
inductive Decoration
  | type (type : TypeId)
  | operation (operation : OperationId)
  | name (name : Name)
  | context (context : ContextId)
  deriving DecidableEq

namespace Decoration

/-- A decoration that stands for nothing written. -/
def isUnset : Decoration → Bool
  | .type t => t = TypeId.unresolved
  | .operation _ => false
  | .name n => n = Name.empty
  | .context _ => false

/-- A decoration, unless it stands for nothing written. -/
def written? (d : Decoration) : Option Decoration := if d.isUnset then none else some d

theorem written?_eq_some_iff {d other : Decoration} :
    d.written? = some other ↔ other = d ∧ d.isUnset = false := by
  unfold written?
  cases d.isUnset <;> simp [eq_comm]

theorem written?_of_written? {d other : Decoration} (h : d.written? = some other) :
    other.written? = some other := by
  obtain ⟨rfl, hset⟩ := written?_eq_some_iff.1 h
  exact written?_eq_some_iff.2 ⟨rfl, hset⟩

end Decoration

namespace Node

inductive Cell
  | type
  | nativeType
  | operation
  | identifier
  | localType (slot : LocalSlot)
  deriving DecidableEq

/-- The cells of a node: only type bodies define a type, only binary expressions stand for an
operation, and only functions have a unique name and local variables. -/
def HasCell (n : Node) : Cell → Prop
  | .type => True
  | .nativeType => n.shape.tag = .typeBody
  | .operation => n.shape.tag = .binary
  | .identifier => n.shape.tag.isFunction = true
  | .localType slot => n.shape.tag.isFunction = true ∧ slot.raw < n.locals.length

/-- What a cell holds, if anything is written. -/
def read (n : Node) : Cell → Option Decoration
  | .type => (Decoration.type n.type).written?
  | .nativeType => n.nativeType.bind fun type => (Decoration.type type).written?
  | .operation => n.operation.map .operation
  | .identifier => n.info.bind fun info => (Decoration.name info.identifier).written?
  | .localType slot => n.locals[slot.raw]?.bind fun type => (Decoration.type type).written?

/-- A node without what its cells hold. -/
def bare (n : Node) : Node :=
  { n with
    type := TypeId.unresolved
    nativeType := none
    operation := none
    info := n.info.map fun info => ⟨Name.empty, info.locals.map fun _ => TypeId.unresolved⟩ }

inductive Write
  | type (type : TypeId)
  | nativeType (type : TypeId)
  | operation (operation : OperationId)
  | identifier (name : Name)
  | localType (slot : LocalSlot) (type : TypeId)

namespace Write

def cell : Write → Cell
  | .type _ => .type
  | .nativeType _ => .nativeType
  | .operation _ => .operation
  | .identifier _ => .identifier
  | .localType slot _ => .localType slot

def value : Write → Decoration
  | .type t => .type t
  | .nativeType t => .type t
  | .operation o => .operation o
  | .identifier n => .name n
  | .localType _ t => .type t

def rule (id : NodeId) : Write → Node → Except Refusal Node
  | .type t => setType t id
  | .nativeType t => setNativeType t id
  | .operation o => setOperation o id
  | .identifier n => setIdentifier n id
  | .localType slot t => setLocalType slot t id

end Write

variable {old new : Node} {id : NodeId} {write : Write}

/-! ### Reading -/

theorem read_congr (type : new.type = old.type) (nativeType : new.nativeType = old.nativeType)
    (operation : new.operation = old.operation) (info : new.info = old.info) :
    new.read = old.read := by
  funext cell
  cases cell <;> simp only [read, locals, type, nativeType, operation, info]

theorem locals_bare (n : Node) : n.bare.locals = n.locals.map fun _ => TypeId.unresolved := by
  unfold locals bare
  cases n.info <;> rfl

/-- What is recorded of a node that is a function. -/
def Recorded (n : Node) : Prop := n.info.isSome = n.shape.tag.isFunction

theorem Recorded.exists_info (recorded : old.Recorded) :
    old.shape.tag.isFunction = true ↔ ∃ info, old.info = some info := by
  rw [← recorded, Option.isSome_iff_exists]

/-- What a cell holds is written. -/
theorem written?_of_read {cell : Cell} {value : Decoration} (held : old.read cell = some value) :
    value.written? = some value := by
  cases cell with
  | type => exact Decoration.written?_of_written? (d := .type old.type) held
  | nativeType =>
      obtain ⟨_, -, hwritten⟩ := Option.bind_eq_some_iff.1 held
      exact Decoration.written?_of_written? hwritten
  | operation =>
      obtain ⟨_, -, rfl⟩ := Option.map_eq_some_iff.1 held
      rfl
  | identifier =>
      obtain ⟨_, -, hwritten⟩ := Option.bind_eq_some_iff.1 held
      exact Decoration.written?_of_written? hwritten
  | localType slot =>
      obtain ⟨_, -, hwritten⟩ := Option.bind_eq_some_iff.1 held
      exact Decoration.written?_of_written? hwritten

/-! ### Writing -/

section Once

variable {α : Type} [DecidableEq α] {current value unset : α} {decoration : String}

/-- A value that is written once goes on into what is made of it. -/
theorem bind_once_eq_ok_iff {next : α → Except Refusal Node} :
    (once current value unset id decoration >>= next) = .ok new
      ↔ (current = unset ∨ current = value) ∧ next value = .ok new := by
  unfold once
  split
  · next h => exact ⟨fun heq => ⟨h, heq⟩, fun heq => heq.2⟩
  · next h => exact ⟨fun heq => (nomatch heq), fun heq => absurd heq.1 h⟩

theorem map_once_eq_ok_iff {make : α → Node} :
    (once current value unset id decoration).map make = .ok new
      ↔ (current = unset ∨ current = value) ∧ new = make value := by
  unfold once
  split
  · next h => exact ⟨fun heq => ⟨h, (Except.ok.inj heq).symm⟩, fun heq => congrArg _ heq.2.symm⟩
  · next h => exact ⟨fun heq => (nomatch heq), fun heq => absurd heq.1 h⟩

end Once

theorem requireInfo_eq_ok_iff {info : FunctionInfo} :
    old.requireInfo id = .ok info ↔ old.info = some info := by
  unfold requireInfo
  cases old.info <;> simp

theorem setType_eq_ok_iff {t : TypeId} : old.setType t id = .ok new
    ↔ (old.type = TypeId.unresolved ∨ old.type = t) ∧ new = { old with type := t } :=
  map_once_eq_ok_iff

theorem setNativeType_eq_ok_iff {t : TypeId} : old.setNativeType t id = .ok new
    ↔ old.shape.tag = .typeBody
      ∧ (old.nativeType.getD TypeId.unresolved = TypeId.unresolved
        ∨ old.nativeType.getD TypeId.unresolved = t)
      ∧ new = { old with nativeType := some t } := by
  unfold setNativeType
  split
  · next htag => exact map_once_eq_ok_iff.trans (and_iff_right htag).symm
  · next htag => exact ⟨fun h => (nomatch h), fun h => absurd h.1 htag⟩

theorem setOperation_eq_ok_iff {o : OperationId} : old.setOperation o id = .ok new
    ↔ old.shape.tag = .binary ∧ (old.operation = none ∨ old.operation = some o)
      ∧ new = { old with operation := some o } := by
  unfold setOperation
  split
  · next htag => exact map_once_eq_ok_iff.trans (and_iff_right htag).symm
  · next htag => exact ⟨fun h => (nomatch h), fun h => absurd h.1 htag⟩

theorem setIdentifier_eq_ok_iff {n : Name} : old.setIdentifier n id = .ok new
    ↔ ∃ info, old.info = some info ∧ (info.identifier = Name.empty ∨ info.identifier = n)
      ∧ new = { old with info := some { info with identifier := n } } := by
  unfold setIdentifier
  rw [Question.bind_eq_ok_iff]
  refine exists_congr fun info => and_congr requireInfo_eq_ok_iff (bind_once_eq_ok_iff.trans ?_)
  exact and_congr_right' ⟨fun h => (Except.ok.inj h).symm, fun h => congrArg Except.ok h.symm⟩

theorem setLocalType_eq_ok_iff {slot : LocalSlot} {t : TypeId} :
    old.setLocalType slot t id = .ok new
      ↔ ∃ info, old.info = some info ∧ ∃ current, info.locals[slot.raw]? = some current
        ∧ (current = TypeId.unresolved ∨ current = t)
        ∧ new = { old with info := some { info with locals := info.locals.set slot.raw t } } := by
  unfold setLocalType
  rw [Question.bind_eq_ok_iff]
  refine exists_congr fun info => and_congr requireInfo_eq_ok_iff ?_
  cases hslot : info.locals[slot.raw]? with
  | none => exact ⟨fun h => (nomatch h), fun ⟨_, h, _⟩ => (nomatch h)⟩
  | some current =>
      simp only [Option.some.injEq, exists_eq_left']
      refine bind_once_eq_ok_iff.trans (and_congr_right' ?_)
      exact ⟨fun h => (Except.ok.inj h).symm, fun h => congrArg Except.ok h.symm⟩

/-- A type may be replaced if it is not written yet or stays what it is. -/
theorem written?_type_iff {current value : TypeId} :
    (Decoration.type current).written? = none
        ∨ (Decoration.type current).written? = some (.type value)
      ↔ current = TypeId.unresolved ∨ current = value := by
  unfold Decoration.written? Decoration.isUnset
  by_cases h : current = TypeId.unresolved <;> simp [h]

/-- So may a unique name. -/
theorem written?_name_iff {current value : Name} :
    (Decoration.name current).written? = none
        ∨ (Decoration.name current).written? = some (.name value)
      ↔ current = Name.empty ∨ current = value := by
  unfold Decoration.written? Decoration.isUnset
  by_cases h : current = Name.empty <;> simp [h]

namespace Write

/-- A write replaces nothing but itself. -/
theorem read_of_rule (h : write.rule id old = .ok new) :
    old.read write.cell = none ∨ old.read write.cell = some write.value := by
  cases write with
  | type t => exact written?_type_iff.2 (setType_eq_ok_iff.1 h).1
  | nativeType t =>
      obtain ⟨-, hfree, -⟩ := setNativeType_eq_ok_iff.1 h
      simp only [cell, value, read]
      cases hnative : old.nativeType with
      | none => exact Or.inl rfl
      | some current =>
          rw [hnative] at hfree
          exact written?_type_iff.2 hfree
  | operation o =>
      obtain ⟨-, hfree | hfree, -⟩ := setOperation_eq_ok_iff.1 h
      · exact Or.inl (congrArg (Option.map _) hfree)
      · exact Or.inr (congrArg (Option.map _) hfree)
  | identifier n =>
      obtain ⟨info, hinfo, hfree, -⟩ := setIdentifier_eq_ok_iff.1 h
      simp only [cell, value, read, hinfo]
      exact written?_name_iff.2 hfree
  | localType slot t =>
      obtain ⟨info, hinfo, current, hcurrent, hfree, -⟩ := setLocalType_eq_ok_iff.1 h
      simp only [cell, value, read, locals_of_info hinfo, hcurrent]
      exact written?_type_iff.2 hfree

/-- A write needs its cell. -/
theorem hasCell_of_rule (recorded : old.Recorded) (h : write.rule id old = .ok new) :
    old.HasCell write.cell := by
  cases write with
  | type t => exact True.intro
  | nativeType t => exact (setNativeType_eq_ok_iff.1 h).1
  | operation o => exact (setOperation_eq_ok_iff.1 h).1
  | identifier n =>
      obtain ⟨info, hinfo, -⟩ := setIdentifier_eq_ok_iff.1 h
      exact recorded.exists_info.2 ⟨info, hinfo⟩
  | localType slot t =>
      obtain ⟨info, hinfo, current, hcurrent, -⟩ := setLocalType_eq_ok_iff.1 h
      refine ⟨recorded.exists_info.2 ⟨info, hinfo⟩, ?_⟩
      rw [locals_of_info hinfo]
      exact (List.getElem?_eq_some_iff.1 hcurrent).1

/-- A write is allowed if its cell is there and free. -/
theorem exists_rule (recorded : old.Recorded) (has : old.HasCell write.cell)
    (free : old.read write.cell = none ∨ old.read write.cell = some write.value) :
    ∃ new, write.rule id old = .ok new := by
  cases write with
  | type t => exact ⟨_, setType_eq_ok_iff.2 ⟨written?_type_iff.1 free, rfl⟩⟩
  | nativeType t =>
      refine ⟨_, setNativeType_eq_ok_iff.2 ⟨has, ?_, rfl⟩⟩
      simp only [cell, value, read] at free
      cases hnative : old.nativeType with
      | none => exact Or.inl rfl
      | some current =>
          rw [hnative] at free
          exact written?_type_iff.1 free
  | operation o =>
      refine ⟨_, setOperation_eq_ok_iff.2 ⟨has, ?_, rfl⟩⟩
      simp only [cell, value, read] at free
      cases hoperation : old.operation with
      | none => exact Or.inl rfl
      | some current =>
          rw [hoperation] at free
          exact Or.inr (by simpa using free)
  | identifier n =>
      obtain ⟨info, hinfo⟩ := recorded.exists_info.1 has
      simp only [cell, value, read, hinfo] at free
      exact ⟨_, setIdentifier_eq_ok_iff.2 ⟨info, hinfo, written?_name_iff.1 free, rfl⟩⟩
  | localType slot t =>
      obtain ⟨function, hslot⟩ := has
      obtain ⟨info, hinfo⟩ := recorded.exists_info.1 function
      rw [locals_of_info hinfo] at hslot
      have hcurrent := List.getElem?_eq_getElem hslot
      simp only [cell, value, read, locals_of_info hinfo, hcurrent] at free
      exact ⟨_, setLocalType_eq_ok_iff.2 ⟨info, hinfo, _, hcurrent, written?_type_iff.1 free, rfl⟩⟩

/-- **When a write is allowed:** the node has the cell, and the cell holds nothing or what is to be
written. -/
theorem exists_rule_iff (recorded : old.Recorded) : (∃ new, write.rule id old = .ok new)
    ↔ old.HasCell write.cell
      ∧ (old.read write.cell = none ∨ old.read write.cell = some write.value) :=
  ⟨fun ⟨_, h⟩ => ⟨hasCell_of_rule recorded h, read_of_rule h⟩,
    fun ⟨has, free⟩ => exists_rule recorded has free⟩

/-- **What a write does:** the cell holds what is written, and nothing else has changed. -/
theorem rule_writes (h : write.rule id old = .ok new) :
    new.read write.cell = write.value.written?
      ∧ (∀ cell, cell ≠ write.cell → new.read cell = old.read cell) ∧ new.bare = old.bare := by
  cases write with
  | type t =>
      obtain ⟨-, rfl⟩ := setType_eq_ok_iff.1 h
      refine ⟨rfl, fun cell hne => ?_, rfl⟩
      cases cell with
      | type => exact absurd rfl hne
      | _ => rfl
  | nativeType t =>
      obtain ⟨-, -, rfl⟩ := setNativeType_eq_ok_iff.1 h
      refine ⟨rfl, fun cell hne => ?_, rfl⟩
      cases cell with
      | nativeType => exact absurd rfl hne
      | _ => rfl
  | operation o =>
      obtain ⟨-, -, rfl⟩ := setOperation_eq_ok_iff.1 h
      refine ⟨rfl, fun cell hne => ?_, rfl⟩
      cases cell with
      | operation => exact absurd rfl hne
      | _ => rfl
  | identifier n =>
      obtain ⟨info, hinfo, -, rfl⟩ := setIdentifier_eq_ok_iff.1 h
      refine ⟨rfl, fun cell hne => ?_, ?_⟩
      · cases cell with
        | identifier => exact absurd rfl hne
        | localType slot => simp only [read, locals, hinfo, Option.map_some, Option.getD_some]
        | _ => rfl
      · simp only [bare, hinfo, Option.map_some]
  | localType slot t =>
      obtain ⟨info, hinfo, current, hcurrent, -, rfl⟩ := setLocalType_eq_ok_iff.1 h
      obtain ⟨hslot, -⟩ := List.getElem?_eq_some_iff.1 hcurrent
      refine ⟨?_, fun cell hne => ?_, ?_⟩
      · simp [read, cell, value, locals, hslot]
      · cases cell with
        | identifier => simp only [read, hinfo, Option.bind_some]
        | localType other =>
            -- two local variables of one function are two cells
            have hother : slot.raw ≠ other.raw := fun heq => hne (by
              cases slot
              cases other
              exact congrArg (fun raw => Cell.localType ⟨raw⟩) heq.symm)
            simp [read, locals, hinfo, List.getElem?_set_ne hother]
        | _ => rfl
      · simp only [bare, hinfo, Option.map_some, List.map_const', List.length_set]

/-- No write replaces what a cell holds. -/
theorem settled (h : write.rule id old = .ok new) {cell : Cell} {value : Decoration}
    (held : old.read cell = some value) : new.read cell = some value := by
  obtain ⟨hwritten, hothers, -⟩ := rule_writes h
  by_cases hcell : cell = write.cell
  · subst hcell
    rcases read_of_rule h with hfree | hsame
    · rw [hfree] at held
      cases held
    · obtain rfl := Option.some.inj (hsame.symm.trans held)
      rw [hwritten]
      exact written?_of_read held
  · rw [hothers cell hcell, held]

end Write

end Node

namespace Forest

variable {f g : Forest} {id : NodeId}

/-- A rule is applied to a node that exists if it allows it. -/
theorem decorate_eq_ok_iff {rule : Node → Except Refusal Node} {done : Unit} :
    decorate id rule f = .ok done g
      ↔ ∃ old new, f.node? id = some old ∧ rule old = .ok new ∧ g = f.replace id new := by
  unfold decorate decorateWith
  cases hold : f.node? id with
  | none => exact ⟨fun h => (nomatch h), fun ⟨_, _, h, _⟩ => (nomatch h)⟩
  | some old =>
      dsimp only
      cases hnew : rule old with
      | error refusal =>
          refine ⟨fun h => (nomatch h), ?_⟩
          rintro ⟨_, _, hsame, hother, -⟩
          cases hsame
          rw [hnew] at hother
          cases hother
      | ok new =>
          constructor
          · intro h
            cases h
            exact ⟨old, new, rfl, hnew, rfl⟩
          · rintro ⟨_, _, hsame, hother, rfl⟩
            cases hsame
            rw [hnew] at hother
            cases hother
            rfl

end Forest

end SyntaxForest
