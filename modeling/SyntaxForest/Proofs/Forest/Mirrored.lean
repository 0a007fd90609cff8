/-
**Columns do what forests do.**

An operation on columns writes in many places what a step of a forest writes into one node.  The two
are compared at the columns of a forest: the operation answers or refuses what the step does, and
leaves the columns of the forest that the step leaves, refused or not.  For that the numbers of the
forest must name something, and the step must keep it so; both are carried through operations in a
row together.

One entry is made before it is known whether the write is allowed.  It is there after a refusal too,
but a write can be refused only if it was there already.

Main definitions:

* `Step.through` — the outcome of a step, its state seen in another way;
* `Mirrors` — an operation on columns that does what a step does.

Main results:

* `Mirrors.bind` — operations in a row;
* `Columns.run_mirrors` — **edits do the same to columns**;
* `Columns.regroupOrRestore_mirrors`, `Columns.regroupDocument_mirrors` — **so do regroupings, also
  those that are refused and undone**;
* `Columns.runAll_columns` — **so do any changes.**
-/

import SyntaxForest.Proofs.Forest.InColumns

set_option relaxedAutoImplicit false
set_option autoImplicit false

namespace SyntaxForest

/-- What a step answers, with the state that it leaves seen in another way. -/
def Step.through {ε σ τ α : Type} (view : σ → τ) : EStateM.Result ε σ α → EStateM.Result ε τ α
  | .ok answer state => .ok answer (view state)
  | .error e state => .error e (view state)

open Forest

/-- An operation on columns does what a step does to the forest in columns, and the step keeps the
numbers. -/
structure Mirrors {ε α : Type} (operation : EStateM ε Columns α) (step : EStateM ε Forest α) :
    Prop where
  /-- The operation answers and leaves what the step does. -/
  same : ∀ {f : Forest}, f.Numbered →
    operation f.columns = Step.through Forest.columns (step f)
  /-- The numbers name something still. -/
  kept : ∀ {f : Forest}, f.Numbered → (stateOf (step f)).Numbered

namespace Mirrors

variable {ε α β : Type} {operation : EStateM ε Columns α} {step : EStateM ε Forest α}

theorem pure (answer : α) : Mirrors (Pure.pure answer : EStateM ε Columns α) (Pure.pure answer) :=
  ⟨fun _ => rfl, fun numbered => numbered⟩

/-- **Steps in a row are mirrored if each of them is.** -/
theorem bind {later : α → EStateM ε Columns β} {next : α → EStateM ε Forest β}
    (first : Mirrors operation step) (second : ∀ answer, Mirrors (later answer) (next answer)) :
    Mirrors (operation >>= later) (step >>= next) where
  same {f} numbered := by
    have hsame := first.same numbered
    have hkept := first.kept numbered
    change EStateM.bind operation later f.columns = Step.through columns (EStateM.bind step next f)
    unfold EStateM.bind
    rw [hsame]
    cases hr : step f with
    | error e g => rfl
    | ok answer g =>
        rw [hr] at hkept
        exact (second answer).same hkept
  kept {f} numbered := by
    have hkept := first.kept numbered
    refine Step.stateOf_bind (fun {e g} hr => ?_) fun {answer g} hr => ?_
    · rwa [hr] at hkept
    · rw [hr] at hkept
      exact (second answer).kept hkept

theorem map (make : α → β) (mirrors : Mirrors operation step) :
    Mirrors (make <$> operation) (make <$> step) where
  same {f} numbered := by
    change EStateM.map make operation f.columns = Step.through columns (EStateM.map make step f)
    unfold EStateM.map
    rw [mirrors.same numbered]
    cases step f <;> rfl
  kept numbered := by
    rw [Step.stateOf_map]
    exact mirrors.kept numbered

theorem ite {c : Prop} [Decidable c] {otherwise : EStateM ε Columns α}
    {other : EStateM ε Forest α} (yes : Mirrors operation step) (no : Mirrors otherwise other) :
    Mirrors (if c then operation else otherwise) (if c then step else other) := by
  split
  · exact yes
  · exact no

/-- What an action works out is what a step does. -/
theorem update {work : Columns → Except Refusal (α × Columns)} {step : Forest.Action α}
    (worked : ∀ {f : Forest}, f.Numbered → (∃ answer g, step f = .ok answer g
        ∧ work f.columns = .ok (answer, g.columns) ∧ g.Numbered)
      ∨ ∃ refusal, step f = .error refusal f ∧ work f.columns = .error refusal) :
    Mirrors (Columns.update work) step where
  same {f} numbered := by
    rcases worked numbered with ⟨answer, g, hstep, hwork, -⟩ | ⟨refusal, hstep, hwork⟩ <;>
      rw [Columns.update, hstep, hwork] <;> rfl
  kept {f} numbered := by
    rcases worked numbered with ⟨answer, g, hstep, -, hkept⟩ | ⟨refusal, hstep, -⟩ <;> rw [hstep]
    · exact hkept
    · exact numbered

end Mirrors

namespace Columns

variable {f : Forest} {id : NodeId} {node : Node}

/-! ### Making nodes -/

theorem entry_of_node {β : Type} {read : Node → β} (here : f.node? id = some node) :
    entry (f.nodes.map read) id = .ok (read node) := by
  rw [entry, getElem?_column here]

theorem entry_of_none {β : Type} {read : Node → β} (missing : f.node? id = none) :
    entry (f.nodes.map read) id = .error (.unknownNode id) := by
  have missing : f.nodes[id.raw]? = none := missing
  rw [entry, Array.getElem?_map, missing]
  rfl

theorem insert_mirrors (shape : Shape) (span : Span) :
    Mirrors (insert shape span) (Forest.insert shape span) := by
  refine Mirrors.update fun {f} numbered => ?_
  rw [Forest.insert, forest_columns numbered]
  cases hid : f.checkNode shape span with
  | error refusal => exact Or.inr ⟨refusal, rfl, rfl⟩
  | ok id =>
      obtain ⟨admits, rfl⟩ := checkNode_eq_ok_iff.1 hid
      refine Or.inl ⟨_, _, rfl, ?_, numbered.add admits none⟩
      rw [columns_add_none]
      rfl

theorem insertDerived_mirrors (shape : Shape) (donor : NodeId) :
    Mirrors (insertDerived shape donor) (Forest.insertDerived shape donor) := by
  refine Mirrors.update fun {f} numbered => ?_
  rw [Forest.insertDerived, forest_columns numbered]
  cases hnode : f.node? donor with
  | none =>
      have hspan : entry f.columns.spans donor = .error (.unknownNode donor) := entry_of_none hnode
      rw [hspan]
      exact Or.inr ⟨_, rfl, rfl⟩
  | some node =>
      have hspan : entry f.columns.spans donor = .ok node.span := entry_of_node hnode
      rw [hspan]
      dsimp only [bind, Except.bind]
      cases hid : f.checkNode shape node.span with
      | error refusal => exact Or.inr ⟨refusal, rfl, rfl⟩
      | ok id =>
          obtain ⟨admits, rfl⟩ := checkNode_eq_ok_iff.1 hid
          refine Or.inl ⟨_, _, rfl, ?_, numbered.add admits _⟩
          rw [columns_add_some]
          rfl

theorem storeList_mirrors (ids : List NodeId) (what : String) :
    Mirrors (storeList ids what) (Forest.storeList ids what) := by
  refine Mirrors.update fun {f} numbered => ?_
  unfold Forest.storeList
  split
  · exact Or.inl ⟨_, _, rfl, rfl, numbered⟩
  · split
    · exact Or.inr ⟨_, rfl, rfl⟩
    · have hlists : f.columns.lists.size = f.lists.size := rfl
      rw [hlists]
      cases Forest.nextPlace f.lists.size with
      | error refusal => exact Or.inr ⟨_, rfl, rfl⟩
      | ok start => exact Or.inl ⟨_, _, rfl, rfl, numbered.keep ids⟩

/-- **Groups are made alike.** -/
theorem groupFunctions_mirrors (name : Name) (members : List NodeId) :
    Mirrors (groupFunctions name members) (Forest.groupFunctions name members) := by
  cases members with
  | nil => exact ⟨fun _ => rfl, fun numbered => numbered⟩
  | cons first rest =>
      exact (storeList_mirrors _ _).bind fun segment => insertDerived_mirrors _ first

/-! ### Decorating nodes -/

/-- A decoration is mirrored if its rule is worked out in columns. -/
theorem decorateWith_mirrors {α : Type} {rule : Node → Except Refusal (α × Node)}
    {work : Columns → Except Refusal (α × Columns)}
    (redecorated : ∀ {old new answer}, rule old = .ok (answer, new) → old.Redecorated new)
    (missing : ∀ {f : Forest}, f.Numbered → f.node? id = none →
      work f.columns = .error (.unknownNode id))
    (worked : ∀ {f : Forest} {node : Node}, f.Numbered → f.node? id = some node →
      work f.columns = (rule node).map fun done => (done.1, (f.replace id done.2).columns)) :
    Mirrors (update work) (decorateWith id rule) := by
  refine Mirrors.update fun {f} numbered => ?_
  unfold decorateWith
  cases hnode : f.node? id with
  | none => exact Or.inr ⟨_, rfl, missing numbered hnode⟩
  | some node =>
      rw [worked numbered hnode]
      dsimp only
      cases hrule : rule node with
      | error refusal => exact Or.inr ⟨refusal, rfl, rfl⟩
      | ok done =>
          obtain ⟨answer, new⟩ := done
          exact Or.inl ⟨answer, _, rfl, rfl, numbered.replace hnode (redecorated hrule).parent⟩

theorem decorate_mirrors {rule : Node → Except Refusal Node}
    {work : Columns → Except Refusal (Unit × Columns)}
    (redecorated : ∀ {old new}, rule old = .ok new → old.Redecorated new)
    (missing : ∀ {f : Forest}, f.Numbered → f.node? id = none →
      work f.columns = .error (.unknownNode id))
    (worked : ∀ {f : Forest} {node : Node}, f.Numbered → f.node? id = some node →
      work f.columns = (rule node).map fun new => ((), (f.replace id new).columns)) :
    Mirrors (update work) (decorate id rule) := by
  refine decorateWith_mirrors (fun h => redecorated (eq_ok_of_rule h)) missing
    fun {f node} numbered here => ?_
  rw [worked numbered here]
  cases rule node <;> rfl

theorem bind_entry_of_none {α β : Type} {read : Node → β} (missing : f.node? id = none)
    (next : β → Except Refusal α) :
    (entry (f.nodes.map read) id >>= next) = .error (.unknownNode id) := by
  rw [entry_of_none missing]
  rfl

theorem bind_entry_of_node {α β : Type} {read : Node → β} (here : f.node? id = some node)
    (next : β → Except Refusal α) : (entry (f.nodes.map read) id >>= next) = next (read node) := by
  rw [entry_of_node here]
  rfl

theorem ok_congr {α : Type} {answer : α} {c d : Columns} (same : c = d) :
    (.ok (answer, c) : Except Refusal (α × Columns)) = .ok (answer, d) := by
  rw [same]

theorem setParenthesized_mirrors (id : NodeId) :
    Mirrors (setParenthesized id) (decorate id Node.setParenthesized) := by
  refine decorate_mirrors Node.setParenthesized_redecorated
    (fun _ missing => bind_entry_of_none missing _) fun _ here => ?_
  refine (bind_entry_of_node here _).trans ?_
  exact ok_congr (columns_set_parenthesized here true).symm

theorem setType_mirrors (id : NodeId) (type : TypeId) :
    Mirrors (setType id type) (decorate id (Node.setType type id)) := by
  refine decorate_mirrors Node.setType_redecorated
    (fun _ missing => bind_entry_of_none missing _) fun {f node} _ here => ?_
  refine (bind_entry_of_node here _).trans ?_
  unfold Node.setType Node.once
  split
  · exact ok_congr (columns_set_type here type).symm
  · rfl

theorem addError_mirrors (id : NodeId) (error : NodeError) :
    Mirrors (addError id error) (decorate id (Node.addError error)) := by
  refine decorate_mirrors Node.addError_redecorated (fun {f} numbered missing => ?_)
    fun {f node} numbered here => ?_
  · rw [numbered.contains_columns, Forest.contains, missing]
    rfl
  · have hformer : f.columns.errors id = node.errors? := Side.of_of_node here
    rw [numbered.contains_columns, Forest.contains, here, hformer, errors_of_errors?]
    exact ok_congr (columns_set_errors here (List.append_ne_nil_of_right_ne_nil _
      (List.cons_ne_nil _ _))).symm

theorem expectTag_of_node (here : f.node? id = some node) (tag : Tag) (expected : String) :
    f.columns.expectTag id tag expected
      = if node.shape.tag = tag then .ok ()
        else .error (.unexpectedTag id expected node.shape.tag) :=
  bind_entry_of_node here _

theorem expectTag_of_none (missing : f.node? id = none) (tag : Tag) (expected : String) :
    f.columns.expectTag id tag expected = .error (.unknownNode id) :=
  bind_entry_of_none missing _

/-- The entry that is made before anything is compared was there if there is a refusal. -/
theorem setNativeType_eq (id : NodeId) (type : TypeId) :
    setNativeType id type = update fun c => do
      c.expectTag id .typeBody "TypeNode"
      let type ← Node.once ((c.nativeTypes id).getD TypeId.unresolved) type TypeId.unresolved id
        "native type"
      return ((), { c with nativeTypes := c.nativeTypes.put id type }) := by
  funext c
  unfold setNativeType update
  dsimp only
  cases c.expectTag id .typeBody "TypeNode" with
  | error refusal => rfl
  | ok _ =>
      dsimp only [bind, Except.bind]
      unfold Node.once
      by_cases free : (c.nativeTypes id).getD TypeId.unresolved = TypeId.unresolved
          ∨ (c.nativeTypes id).getD TypeId.unresolved = type
      · simp only [if_pos free]
        rfl
      · simp only [if_neg free]
        cases hentry : c.nativeTypes id with
        | none =>
            rw [hentry] at free
            exact absurd (Or.inl rfl) free
        | some current =>
            have hput : c.nativeTypes.put id current = c.nativeTypes := by
              rw [Side.put, ← hentry, Function.update_eq_self]
            rw [Option.getD_some, hput]

theorem setNativeType_mirrors (id : NodeId) (type : TypeId) :
    Mirrors (setNativeType id type) (decorate id (Node.setNativeType type id)) := by
  rw [setNativeType_eq]
  refine decorate_mirrors Node.setNativeType_redecorated (fun {f} _ missing => ?_)
    fun {f node} _ here => ?_
  · rw [expectTag_of_none missing]
    rfl
  · have hformer : f.columns.nativeTypes id = node.nativeType := Side.of_of_node here
    rw [expectTag_of_node here, hformer, Node.setNativeType]
    split
    · unfold Node.once
      split
      · exact ok_congr (columns_set_nativeType here type).symm
      · rfl
    · rfl

theorem setOperation_mirrors (id : NodeId) (operation : OperationId) :
    Mirrors (setOperation id operation) (decorate id (Node.setOperation operation id)) := by
  refine decorate_mirrors Node.setOperation_redecorated (fun {f} _ missing => ?_)
    fun {f node} _ here => ?_
  · rw [expectTag_of_none missing]
    rfl
  · have hformer : f.columns.operations id = node.operation := Side.of_of_node here
    rw [expectTag_of_node here, hformer, Node.setOperation]
    split
    · unfold Node.once
      cases node.operation with
      | none => exact ok_congr (columns_set_operation here operation).symm
      | some current =>
          simp only [reduceCtorEq, false_or, Option.some.injEq]
          by_cases hsame : current = operation
          · simp only [if_pos hsame]
            exact ok_congr (columns_set_operation here operation).symm
          · simp only [if_neg hsame]
            rfl
    · rfl

theorem setLiteral_mirrors (id : NodeId) (value : Literal) :
    Mirrors (setLiteral id value) (decorate id (Node.setLiteral value id)) := by
  refine decorate_mirrors Node.setLiteral_redecorated
    (fun _ missing => bind_entry_of_none missing _) fun {f node} _ here => ?_
  refine (bind_entry_of_node here _).trans ?_
  unfold Node.setLiteral
  cases node.shape with
  | literal current =>
      dsimp only
      split
      · exact ok_congr (columns_set_shape here (.literal value)).symm
      · rfl
  | _ => rfl

/-! ### Decorating functions -/

/-- What is recorded of functions only is recorded of numbers with a node only. -/
theorem requireInfo_of_none (missing : f.node? id = none) :
    f.columns.requireInfo id = .error (.unknownNode id) := by
  have hentry : f.columns.functions id = none := by
    have missing : f.nodes[id.raw]? = none := missing
    exact congrArg (Option.bind · Node.info) missing
  rw [requireInfo, hentry]
  exact bind_entry_of_none missing _

theorem requireInfo_of_node (here : f.node? id = some node) :
    f.columns.requireInfo id = node.requireInfo id := by
  have hentry : f.columns.functions id = node.info := Side.of_of_node here
  rw [requireInfo, hentry, Node.requireInfo]
  cases node.info with
  | none => exact bind_entry_of_node here _
  | some info => rfl

/-- **Functions are decorated alike,** if the rule of a node is that of what is recorded. -/
theorem decorateFunction_mirrors {α : Type}
    {rule : FunctionInfo → Except Refusal (α × FunctionInfo)}
    {nodeRule : Node → Except Refusal (α × Node)}
    (redecorated : ∀ {old new answer}, nodeRule old = .ok (answer, new) → old.Redecorated new)
    (ruled : ∀ node : Node, nodeRule node = (do
      let info ← node.requireInfo id
      let done ← rule info
      return (done.1, { node with info := some done.2 }))) :
    Mirrors (decorateFunction id rule) (decorateWith id nodeRule) := by
  refine decorateWith_mirrors redecorated (fun {f} _ missing => ?_) fun {f node} _ here => ?_
  · rw [requireInfo_of_none missing]
    rfl
  · rw [requireInfo_of_node here, ruled]
    cases node.requireInfo id with
    | error refusal => rfl
    | ok info =>
        dsimp only [bind, Except.bind]
        cases rule info with
        | error refusal => rfl
        | ok done => exact ok_congr (columns_set_info here done.2).symm

theorem setIdentifier_mirrors (id : NodeId) (name : Name) :
    Mirrors (setIdentifier id name) (decorate id (Node.setIdentifier name id)) := by
  refine decorateFunction_mirrors (fun h => Node.setIdentifier_redecorated (eq_ok_of_rule h))
    fun node => ?_
  unfold Node.setIdentifier
  cases node.requireInfo id with
  | error refusal => rfl
  | ok info =>
      dsimp only [bind, Except.bind]
      cases Node.once info.identifier name Name.empty id "internal identifier" <;> rfl

theorem allocateLocal_mirrors (id : NodeId) (type : TypeId) :
    Mirrors (allocateLocal id type) (decorateWith id (Node.allocateLocal type id)) := by
  refine decorateFunction_mirrors Node.allocateLocal_redecorated fun node => ?_
  unfold Node.allocateLocal
  cases node.requireInfo id with
  | error refusal => rfl
  | ok info =>
      dsimp only [bind, Except.bind]
      cases nextPlace info.locals.length <;> rfl

theorem setLocalType_mirrors (id : NodeId) (slot : LocalSlot) (type : TypeId) :
    Mirrors (setLocalType id slot type) (decorate id (Node.setLocalType slot type id)) := by
  refine decorateFunction_mirrors (fun h => Node.setLocalType_redecorated (eq_ok_of_rule h))
    fun node => ?_
  unfold Node.setLocalType
  cases node.requireInfo id with
  | error refusal => rfl
  | ok info =>
      dsimp only [bind, Except.bind]
      cases info.locals[slot.raw]? with
      | none => rfl
      | some current =>
          dsimp only
          cases Node.once current type TypeId.unresolved id "local type" <;> rfl

theorem reserveLocals_mirrors (id : NodeId) (count : Nat) :
    Mirrors (reserveLocals id count) (decorate id (Node.reserveLocals count id)) := by
  refine decorateFunction_mirrors (fun h => Node.reserveLocals_redecorated (eq_ok_of_rule h))
    fun node => ?_
  unfold Node.reserveLocals
  cases node.requireInfo id <;> rfl

/-! ### Edits -/

/-- **An edit does the same to columns.** -/
theorem run_mirrors (edit : Edit) : Mirrors (run edit) edit.run := by
  cases edit with
  | insert shape span => exact (insert_mirrors shape span).map _
  | insertDerived shape donor => exact (insertDerived_mirrors shape donor).map _
  | storeList ids what => exact (storeList_mirrors ids what).map _
  | setParenthesized node => exact (setParenthesized_mirrors node).map _
  | setType node type => exact (setType_mirrors node type).map _
  | addError node error => exact (addError_mirrors node error).map _
  | setNativeType node type => exact (setNativeType_mirrors node type).map _
  | setOperation node operation => exact (setOperation_mirrors node operation).map _
  | setLiteral node value => exact (setLiteral_mirrors node value).map _
  | setIdentifier function name => exact (setIdentifier_mirrors function name).map _
  | allocateLocal function type => exact (allocateLocal_mirrors function type).map _
  | setLocalType function slot type => exact (setLocalType_mirrors function slot type).map _
  | specialize base closure => exact (insertDerived_mirrors _ base).map _
  | groupFunctions name members => exact (groupFunctions_mirrors name members).map _

/-! ### Regrouping -/

/-- Among attempts an action is mirrored by the same operation. -/
theorem toAttempt_mirrors {α : Type} {operation : Action α} {action : Forest.Action α}
    (mirrors : Mirrors operation action) : Mirrors operation.toAttempt action.toAttempt where
  same {f} numbered := by
    rw [Action.toAttempt, Forest.Action.toAttempt, mirrors.same numbered]
    cases action f <;> rfl
  kept {f} numbered := by
    have hkept := mirrors.kept numbered
    unfold Forest.Action.toAttempt
    split
    · next hr => rwa [hr] at hkept
    · next hr => rwa [hr] at hkept

theorem ask_mirrors {α : Type} (question : Forest → Except Refusal α) :
    Mirrors (ask fun f => (question f).mapError Failure.refused) (Forest.ask question) where
  same {f} numbered := by
    rw [ask, Forest.ask, forest_columns numbered]
    cases question f <;> rfl
  kept {f} numbered := by
    unfold Forest.ask
    split <;> exact numbered

theorem tagOf_mirrors (id : NodeId) : Mirrors (tagOf id) (Forest.tagOf id) where
  same {f} _ := by
    unfold tagOf Forest.tagOf tag?
    rw [getElem?_shapes_columns]
    cases f.node? id <;> rfl
  kept {f} numbered := by
    unfold Forest.tagOf
    split <;> exact numbered

/-- **Contents are exchanged alike.** -/
theorem replaceShape_mirrors (id : NodeId) (shape : Shape) :
    Mirrors (replaceShape id shape) (Forest.replaceShape id shape) where
  same {f} numbered := by
    rw [replaceShape, Forest.replaceShape, forest_columns numbered]
    cases here : f.node? id with
    | none => rfl
    | some node =>
        dsimp only
        cases f.checkReplacement id node shape with
        | error refusal => rfl
        | ok _ =>
            dsimp only
            rw [children_columns, childList_of_node? here]
            simp only [numbered.contains_columns]
            cases (f.childrenOf node).find? fun child => !f.contains child with
            | some child => rfl
            | none => exact congrArg (EStateM.Result.ok ()) (columns_reshape f id node shape).symm
  kept {f} numbered := by
    cases hr : Forest.replaceShape id shape f with
    | ok _ g =>
        obtain ⟨node, here, -, -, rfl⟩ := replaceShape_eq_ok_iff.1 hr
        exact numbered.reshape here
    | error failure g =>
        rw [(replaceShape_error hr).1]
        exact numbered

theorem regroupOne_mirrors (members : Name → List NodeId) (directive : NodeId) :
    Mirrors (regroupOne members directive) (Forest.regroupOne members directive) := by
  refine (tagOf_mirrors directive).bind fun tag => ?_
  refine Mirrors.ite (Mirrors.pure _) ?_
  refine (ask_mirrors _).bind fun name => ?_
  rcases members name with _ | ⟨first, _ | ⟨second, rest⟩⟩
  · exact Mirrors.pure _
  · exact Mirrors.pure _
  · exact Mirrors.ite ((toAttempt_mirrors (groupFunctions_mirrors name _)).bind fun _ =>
      Mirrors.pure _) (Mirrors.pure _)

theorem regroupEach_mirrors (members : Name → List NodeId) (listed : List NodeId) :
    Mirrors (regroupEach members listed) (Forest.regroupEach members listed) := by
  induction listed with
  | nil => exact Mirrors.pure _
  | cons directive rest ih =>
      exact (regroupOne_mirrors members directive).bind fun _ => ih.bind fun _ => Mirrors.pure _

theorem regroup_mirrors (root : NodeId) (listed : List NodeId) (members : Name → List NodeId) :
    Mirrors (regroup root listed members) (Forest.regroup root listed members) :=
  (replaceShape_mirrors root _).bind fun _ =>
    (regroupEach_mirrors members listed).bind fun _ =>
      (toAttempt_mirrors (storeList_mirrors _ _)).bind fun segment =>
        (replaceShape_mirrors root (.document segment)).bind fun _ => Mirrors.pure _

/-- **A regrouping that is refused is undone alike.** -/
theorem regroupOrRestore_mirrors (root : NodeId) (former : Segment)
    (members : Name → List NodeId) :
    Mirrors (regroupOrRestore root former members) (Forest.regroupOrRestore root former members)
    where
  same {f} numbered := by
    have regrouped := regroup_mirrors root (f.list former) members
    have hsame := regrouped.same numbered
    have hkept := regrouped.kept numbered
    have hmark : f.columns.mark = f.mark := congrArg (Mark.mk · _) (size_columns f)
    have hlist : former.entries f.columns.lists = f.list former := rfl
    unfold regroupOrRestore Forest.regroupOrRestore
    rw [hlist, hsame]
    cases hr : Forest.regroup root (f.list former) members f with
    | ok groups g => rfl
    | error failure g =>
        rw [hr] at hkept
        cases failure with
        | fault fault => rfl
        | refused refusal =>
            -- both are rolled back to the same mark, and then the contents are exchanged alike
            have back : (g.rollback f.mark).Numbered := Numbered.rollback hkept f.mark
            dsimp only [Step.through]
            rw [hmark, ← columns_rollback,
              (replaceShape_mirrors root (.document former)).same back]
            cases Forest.replaceShape root (.document former) (g.rollback f.mark) <;> rfl
  kept {f} numbered := by
    have hkept := (regroup_mirrors root (f.list former) members).kept numbered
    unfold Forest.regroupOrRestore
    split
    · next refusal g hr =>
        rw [hr] at hkept
        have back : (g.rollback f.mark).Numbered := Numbered.rollback hkept f.mark
        have restored := (replaceShape_mirrors root (.document former)).kept back
        split
        · next hs => rwa [hs] at restored
        · next hs => rwa [hs] at restored
    · exact hkept

/-- **Documents are regrouped alike.** -/
theorem regroupDocument_mirrors (root : NodeId) :
    Mirrors (regroupDocument root) (Forest.regroupDocument root) := by
  refine (ask_mirrors _).bind fun former => ?_
  refine Mirrors.bind ⟨fun {f} numbered => ?_, fun {f} numbered => ?_⟩ fun declared => ?_
  · rw [ask, forest_columns numbered]
    cases f.declaredNames (f.list former) <;> rfl
  · split <;> exact numbered
  · exact Mirrors.ite (regroupOrRestore_mirrors root former _) (Mirrors.pure _)

/-! ### Changes -/

theorem stateOf_mirrored {ε α : Type} {operation : EStateM ε Columns α} {step : EStateM ε Forest α}
    (mirrors : Mirrors operation step) (numbered : f.Numbered) :
    stateOf (operation f.columns) = (stateOf (step f)).columns := by
  rw [mirrors.same numbered]
  cases step f <;> rfl

/-- **A change does the same to columns.** -/
theorem after_columns (numbered : f.Numbered) (change : Change) :
    f.columns.after change = (change.after f).columns ∧ (change.after f).Numbered := by
  cases change with
  | edit edit =>
      rw [Change.after, Edit.after_eq_stateOf]
      exact ⟨stateOf_mirrored (run_mirrors edit) numbered, (run_mirrors edit).kept numbered⟩
  | reserveLocals function count =>
      have mirrors := reserveLocals_mirrors function count
      exact ⟨stateOf_mirrored mirrors numbered, mirrors.kept numbered⟩
  | regroup root =>
      have mirrors := regroupDocument_mirrors root
      exact ⟨stateOf_mirrored mirrors numbered, mirrors.kept numbered⟩

/-- **So do any changes.** -/
theorem runAll_columns (numbered : f.Numbered) (changes : List Change) :
    f.columns.runAll changes = (Change.runAll f changes).columns
      ∧ (Change.runAll f changes).Numbered := by
  induction changes generalizing f with
  | nil => exact ⟨rfl, numbered⟩
  | cons change rest ih =>
      obtain ⟨hafter, hkept⟩ := after_columns numbered change
      rw [runAll, List.foldl_cons, hafter]
      exact ih hkept

end Columns

end SyntaxForest
