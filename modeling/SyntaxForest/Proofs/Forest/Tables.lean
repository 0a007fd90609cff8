/-
**Side tables match the columns.**

The fields of a node cannot come apart, but columns can: each of them has to get an entry when a
node is made, and a side table that keeps an entry of a node that is dropped hands it to the next
node of that number.  This module says what is true of all columns that changes make of none,
whatever contents and numbers are handed over and whether the changes are refused or not.  All
columns have the same length; exactly the functions have what is recorded of functions; other
decorations stand where they belong; what is not in the source comes from an earlier node at the
same place; and a node that names an owner is listed by it.

The last of these is the only direction that holds of the owners.  A segment may lie beyond the
store when its node is made and hold nodes later, and these name nobody.

Because exactly the functions have entries, asking for one is asking whether a number is that of a
function: an operation that begins with it refuses the others, and says why.

Main definitions:

* `Node.Suited` — a node that has only what nodes of its sort may have;
* `Forest.Descended` — a forest in which nodes come from earlier nodes at the same place;
* `Columns.Consistent` — **columns and side tables that match**;
* `Columns.AsksForFunction` — an operation that refuses what is not a function, and says why.

Main results:

* `Forest.Suited.runAll`, `Forest.Descended.runAll` — changes keep to both;
* `Columns.consistent_columns` — the columns of such a forest match;
* `Columns.Consistent.asksForFunction` — **then functions are told from other numbers**;
* `Columns.tables_of_changes` — **all of it after any changes.**
-/

import SyntaxForest.Proofs.Document.Decorations
import SyntaxForest.Proofs.Forest.Mirrored

set_option relaxedAutoImplicit false
set_option autoImplicit false

namespace SyntaxForest

/-! ### Decorations that belong to a sort -/

/-- A node that has only what nodes of its sort may have. -/
structure Node.Suited (n : Node) : Prop where
  nativeType : n.nativeType.isSome = true → n.shape.tag = .typeBody
  operation : n.operation.isSome = true → n.shape.tag = .binary

namespace Node.Suited

variable {old new : Node} {id : NodeId}

theorem fresh (shape : Shape) (span : Span) (donor : Option NodeId) :
    (Node.fresh shape span donor).Suited :=
  ⟨fun h => (nomatch h), fun h => (nomatch h)⟩

/-- Other fields make no difference. -/
theorem congr (suited : old.Suited) (tag : new.shape.tag = old.shape.tag)
    (nativeType : new.nativeType = old.nativeType) (operation : new.operation = old.operation) :
    new.Suited where
  nativeType h := by
    rw [tag]
    exact suited.nativeType (nativeType ▸ h)
  operation h := by
    rw [tag]
    exact suited.operation (operation ▸ h)

/-- What is written belongs to its node. -/
theorem write {write : Node.Write} (suited : old.Suited) (h : write.rule id old = .ok new) :
    new.Suited := by
  cases write with
  | type t =>
      obtain ⟨-, rfl⟩ := setType_eq_ok_iff.1 h
      exact suited.congr rfl rfl rfl
  | nativeType t =>
      obtain ⟨tag, -, rfl⟩ := setNativeType_eq_ok_iff.1 h
      exact ⟨fun _ => tag, suited.operation⟩
  | operation o =>
      obtain ⟨tag, -, rfl⟩ := setOperation_eq_ok_iff.1 h
      exact ⟨suited.nativeType, fun _ => tag⟩
  | identifier n =>
      obtain ⟨info, -, -, rfl⟩ := setIdentifier_eq_ok_iff.1 h
      exact suited.congr rfl rfl rfl
  | localType slot t =>
      obtain ⟨info, -, current, -, -, rfl⟩ := setLocalType_eq_ok_iff.1 h
      exact suited.congr rfl rfl rfl

/-- A literal stays a literal. -/
theorem setLiteral {value : Literal} (suited : old.Suited)
    (h : old.setLiteral value id = .ok new) : new.Suited := by
  have redecorated := setLiteral_redecorated h
  unfold Node.setLiteral at h
  split at h
  · split at h
    · cases h
      exact suited.congr redecorated.tag rfl rfl
    · cases h
  · cases h

/-- More local variables belong to a function. -/
theorem allocateLocal {type : TypeId} {slot : LocalSlot} (suited : old.Suited)
    (h : old.allocateLocal type id = .ok (slot, new)) : new.Suited := by
  obtain ⟨info, -, h⟩ := Question.bind_eq_ok_iff.1 h
  obtain ⟨place, -, h⟩ := Question.bind_eq_ok_iff.1 h
  cases h
  exact suited.congr rfl rfl rfl

theorem reserveLocals {count : Nat} (suited : old.Suited)
    (h : old.reserveLocals count id = .ok new) : new.Suited := by
  obtain ⟨info, -, h⟩ := Question.bind_eq_ok_iff.1 h
  cases h
  exact suited.congr rfl rfl rfl

end Node.Suited

namespace Forest

variable {f g h : Forest} {id root : NodeId} {node : Node} {shape : Shape} {span : Span}

/-- All nodes have only what nodes of their sorts may have. -/
def Suited (f : Forest) : Prop := ∀ id node, f.node? id = some node → node.Suited

namespace Suited

theorem empty : Suited empty := fun _ _ here =>
  absurd (lt_size_of_node? here) (Nat.not_lt_zero _)

theorem add (donor : Option NodeId) (suited : f.Suited) (admits : f.Admits shape span) :
    (f.add shape span donor).Suited := by
  intro id node here
  rcases admits.node?_add_cases here with ⟨old, hold, rfl⟩ | ⟨rfl, rfl⟩
  · unfold adopted
    split
    · exact (suited id old hold).congr rfl rfl rfl
    · exact suited id old hold
  · exact Node.Suited.fresh shape span donor

theorem replace {old new : Node} (suited : f.Suited) (here : f.node? id = some old)
    (change : old.Suited → new.Suited) : (f.replace id new).Suited := by
  intro other node hother
  by_cases heq : other = id
  · subst heq
    rw [node?_replace_self here] at hother
    cases hother
    exact change (suited other old here)
  · rw [node?_replace_of_ne heq] at hother
    exact suited other node hother

/-- A document that owns other directives is one still. -/
theorem reshape {directives : Segment} (suited : f.Suited) (here : f.node? root = some node)
    (document : node.shape.tag = .document) :
    (f.reshape root node (.document directives)).Suited := by
  intro id later hlater
  rw [node?_reshape] at hlater
  obtain ⟨old, hold, rfl⟩ := Option.map_eq_some_iff.1 hlater
  obtain ⟨parent, hparent⟩ := exists_reshaped root (f.childrenOf node)
    (Shape.children f.lists (.document directives)) (.document directives) id old
  rw [hparent]
  refine (suited id old hold).congr ?_ rfl rfl
  dsimp only
  split
  · next hid =>
      rw [hid, here] at hold
      cases hold
      exact document.symm
  · rfl

theorem rollback (suited : f.Suited) (m : Mark) : (f.rollback m).Suited := by
  intro id last hlast
  obtain ⟨old, parent, hold, rfl, -⟩ := exists_of_node?_rollback hlast
  exact (suited id old hold).congr rfl rfl rfl

end Suited

/-- Moves that keep to what nodes may have. -/
structure Suits (f g : Forest) : Prop where
  moves : f.Moves g
  suited : f.Suited → g.Suited

namespace Suits

theorem refl (f : Forest) : f.Suits f := ⟨Moves.refl f, fun suited => suited⟩

theorem trans (first : f.Suits g) (second : g.Suits h) : f.Suits h :=
  ⟨first.moves.trans second.moves, fun suited => second.suited (first.suited suited)⟩

theorem carries : Carries (fun _ _ => True) Suits where
  refl := refl
  trans := trans
  keep f ids := ⟨(Moves.refl f).act (.keep ids), fun suited => suited⟩
  add admits _ origin :=
    ⟨(Moves.refl _).act (.add admits True.intro origin), fun suited => suited.add _ admits⟩

theorem regroups (root : NodeId) : Regroups root Suits where
  toCarries := carries
  document suits document := suits.moves.tag? document
  exchange here document accepts :=
    ⟨(Moves.refl _).exchange here document accepts, fun suited => suited.reshape here document⟩
  rollback suits :=
    ⟨(Moves.refl _).rollback suits.moves, fun suited => (suits.suited suited).rollback _⟩

/-! ### Decorations -/

theorem decorateWith {α : Type} {rule : Node → Except Refusal (α × Node)}
    (redecorated : ∀ {old new answer}, rule old = .ok (answer, new) → old.Redecorated new)
    (suits : ∀ {old new answer}, old.Suited → rule old = .ok (answer, new) → new.Suited)
    (f : Forest) : f.Suits (stateOf (decorateWith id rule f)) where
  moves := Moves.acts (acts_decorateWith redecorated)
  suited suited := by
    unfold Forest.decorateWith
    split
    · exact suited
    · next old hold =>
        split
        · exact suited
        · next answer new hnew => exact suited.replace hold fun before => suits before hnew

theorem decorate {rule : Node → Except Refusal Node}
    (redecorated : ∀ {old new}, rule old = .ok new → old.Redecorated new)
    (suits : ∀ {old new}, old.Suited → rule old = .ok new → new.Suited) (f : Forest) :
    f.Suits (stateOf (decorate id rule f)) :=
  decorateWith (fun hr => redecorated (eq_ok_of_rule hr))
    (fun suited hr => suits suited (eq_ok_of_rule hr)) f

theorem write (write : Node.Write) (f : Forest) :
    f.Suits (stateOf (Forest.decorate id (write.rule id) f)) :=
  decorate (Node.Write.redecorated write) Node.Suited.write f

end Suits

/-! ### Changes -/

/-- An edit keeps to what nodes may have. -/
theorem suits_edit (f : Forest) (edit : Edit) : f.Suits (edit.after f) := by
  rw [Edit.after_eq_stateOf]
  cases edit <;> rw [Edit.run, Step.stateOf_map]
  case insert shape span => exact Suits.carries.insert fun _ => True.intro
  case insertDerived shape donor => exact Suits.carries.insertDerived fun _ => True.intro
  case storeList ids what => exact Suits.carries.storeList ids what
  case setParenthesized node =>
      refine Suits.decorate Node.setParenthesized_redecorated (fun {old new} suited h => ?_) f
      cases h
      exact suited.congr rfl rfl rfl
  case setType node type => exact Suits.write (.type type) f
  case addError node error =>
      refine Suits.decorate Node.addError_redecorated (fun {old new} suited h => ?_) f
      cases h
      exact suited.congr rfl rfl rfl
  case setNativeType node type => exact Suits.write (.nativeType type) f
  case setOperation node operation => exact Suits.write (.operation operation) f
  case setLiteral node value =>
      exact Suits.decorate Node.setLiteral_redecorated Node.Suited.setLiteral f
  case setIdentifier function name => exact Suits.write (.identifier name) f
  case allocateLocal function type =>
      exact Suits.decorateWith Node.allocateLocal_redecorated Node.Suited.allocateLocal f
  case setLocalType function slot type => exact Suits.write (.localType slot type) f
  case specialize base closure => exact Suits.carries.insertDerived fun _ => True.intro
  case groupFunctions name members => exact Suits.carries.groupFunctions fun _ _ _ => True.intro

/-- So does any change, refused or not. -/
theorem suits_after (f : Forest) (change : Change) : f.Suits (change.after f) := by
  cases change with
  | edit edit => exact suits_edit f edit
  | reserveLocals function count =>
      exact Suits.decorate Node.reserveLocals_redecorated Node.Suited.reserveLocals f
  | regroup root => exact (Suits.regroups root).regroupDocument f

/-- **Whatever changes are made, nodes have only what nodes of their sorts may have.** -/
theorem Suited.runAll (suited : f.Suited) (changes : List Change) :
    (Change.runAll f changes).Suited := by
  induction changes generalizing f with
  | nil => exact suited
  | cons change rest ih => exact ih ((suits_after f change).suited suited)

/-! ### Origins -/

/-- A node that is derived from another has a greater number, and the same place in the source. -/
def Descended (f : Forest) : Prop := ∀ id node donor, f.node? id = some node →
  node.donor = some donor →
  donor.raw < id.raw ∧ ∃ origin, f.node? donor = some origin ∧ origin.span = node.span

namespace Descended

theorem empty : Descended empty := fun _ _ _ here =>
  absurd (lt_size_of_node? here) (Nat.not_lt_zero _)

/-- Nodes of before keep their origins. -/
theorem of_lt (descended : f.Descended) (evolves : f.Evolves g) {donor : NodeId}
    (here : g.node? id = some node) (lt : id.raw < f.size) (derived : node.donor = some donor) :
    donor.raw < id.raw ∧ ∃ origin, g.node? donor = some origin ∧ origin.span = node.span := by
  obtain ⟨old, hold⟩ := node?_isSome_iff.2 lt
  obtain ⟨later, hlater, becomes⟩ := evolves.node hold
  obtain rfl := Option.some.inj (here.symm.trans hlater)
  rw [becomes.donor] at derived
  obtain ⟨hlt, origin, horigin, hspan⟩ := descended id old donor hold derived
  obtain ⟨last, hlast, becomes'⟩ := evolves.node horigin
  exact ⟨hlt, last, hlast, by rw [becomes'.span, hspan, becomes.span]⟩

theorem of_size_le (descended : f.Descended) (evolves : f.Evolves g) (le : g.size ≤ f.size) :
    g.Descended := fun _ _ _ here =>
  descended.of_lt evolves here (Nat.lt_of_lt_of_le (lt_size_of_node? here) le)

/-- A node that is made is given the place of its origin. -/
theorem add {donor : Option NodeId} (descended : f.Descended) (admits : f.Admits shape span)
    (origin : ∀ d, donor = some d → ∃ node, f.node? d = some node ∧ node.span = span) :
    (f.add shape span donor).Descended := by
  intro id node other here derived
  have evolves : f.Evolves (f.add shape span donor) := Evolves.add admits donor
  rcases admits.node?_add_cases here with ⟨old, hold, -⟩ | ⟨rfl, rfl⟩
  · exact descended.of_lt evolves here (lt_size_of_node? hold) derived
  · obtain ⟨old, hold, hspan⟩ := origin other derived
    obtain ⟨later, hlater, becomes⟩ := evolves.node hold
    exact ⟨lt_size_of_node? hold, later, hlater, becomes.span.trans hspan⟩

/-- **Whatever changes are made, derived nodes come from earlier nodes at the same place.** -/
theorem runAll (descended : f.Descended) (changes : List Change) :
    (Change.runAll f changes).Descended :=
  (moves_runAll f changes).preserves descended of_size_le fun descended admits origin =>
    descended.add admits origin

end Descended

end Forest

/-- A refusal that says that there is no such node, or that it is not of the sort that is wanted. -/
def Refusal.isMisdirected : Refusal → Bool
  | .unknownNode _ => true
  | .unexpectedTag _ _ _ => true
  | _ => false

namespace Columns

open Forest (size_columns getElem?_column exists_node_of_side exists_node_of_column)

variable {c : Columns} {f : Forest} {id : NodeId} {α : Type}

/-! ### Columns that match -/

/-- The number of a node that is a function. -/
def IsFunction (c : Columns) (id : NodeId) : Prop :=
  ∃ shape, c.shapes[id.raw]? = some shape ∧ shape.tag.isFunction = true

/-- **Columns and side tables that match.** -/
structure Consistent (c : Columns) : Prop where
  lengths : c.spans.size = c.size ∧ c.parents.size = c.size ∧ c.types.size = c.size
    ∧ c.marks.size = c.size
  present : ∀ id : NodeId, id.raw < c.size → id ≠ NodeId.absent
  /-- Exactly the functions have what is recorded of functions. -/
  functions : ∀ id, (c.functions id).isSome = true ↔ c.IsFunction id
  nativeTypes : ∀ id, (c.nativeTypes id).isSome = true →
    ∃ shape, c.shapes[id.raw]? = some shape ∧ shape.tag = .typeBody
  operations : ∀ id, (c.operations id).isSome = true →
    ∃ shape, c.shapes[id.raw]? = some shape ∧ shape.tag = .binary
  errors : ∀ id, (c.errors id).isSome = true → id.raw < c.size
  /-- A node is marked as derived exactly if another node is noted for it. -/
  derived : ∀ id, (∃ marks, c.marks[id.raw]? = some marks ∧ marks.derived = true)
    ↔ (c.donors id).isSome = true
  /-- That node was there before, and it has the same place in the source. -/
  donors : ∀ id donor, c.donors id = some donor →
    donor.raw < id.raw ∧ ∃ span, c.spans[donor.raw]? = some span ∧ c.spans[id.raw]? = some span
  owners : ∀ child owner, c.parent? child = some owner → child ∈ c.children owner

/-- What has an entry in a side table has a shape that the entry fits. -/
theorem exists_shape_of_side {read : Node → Option α} {P : Shape → Prop}
    (fits : ∀ node, f.node? id = some node → (read node).isSome = true → P node.shape)
    (h : (Side.of read f.nodes id).isSome = true) :
    ∃ shape, f.columns.shapes[id.raw]? = some shape ∧ P shape := by
  obtain ⟨entry, hentry⟩ := Option.isSome_iff_exists.1 h
  obtain ⟨node, here, hnode⟩ := exists_node_of_side hentry
  exact ⟨node.shape, getElem?_column here, fits node here (Option.isSome_of_eq_some hnode)⟩

/-- **The columns of a forest match** if its nodes have what they may have. -/
theorem consistent_columns (numbered : f.Numbered) (recorded : f.Recorded) (suited : f.Suited)
    (descended : f.Descended) (owners : f.OwnersList) : f.columns.Consistent where
  lengths := by simp [Forest.columns, size]
  present id h := numbered.ne_absent (size_columns f ▸ h)
  functions id := by
    refine ⟨exists_shape_of_side fun node here h => (recorded id node here).symm.trans h, ?_⟩
    rintro ⟨shape, hshape, hfunction⟩
    obtain ⟨node, here, rfl⟩ := exists_node_of_column hshape
    have hentry : f.columns.functions id = node.info := Side.of_of_node here
    rw [hentry, recorded id node here, hfunction]
  nativeTypes id := exists_shape_of_side fun node here => (suited id node here).nativeType
  operations id := exists_shape_of_side fun node here => (suited id node here).operation
  errors id h := by
    obtain ⟨errors, herrors⟩ := Option.isSome_iff_exists.1 h
    obtain ⟨node, here, -⟩ := exists_node_of_side herrors
    rw [size_columns]
    exact Forest.lt_size_of_node? here
  derived id := by
    constructor
    · -- the mark of a derived node is read off its donor
      rintro ⟨marks, hmarks, hderived⟩
      obtain ⟨node, here, rfl⟩ := exists_node_of_column hmarks
      have hentry : f.columns.donors id = node.donor := Side.of_of_node here
      rw [hentry]
      exact hderived
    · intro h
      obtain ⟨donor, hdonor⟩ := Option.isSome_iff_exists.1 h
      obtain ⟨node, here, hnode⟩ := exists_node_of_side hdonor
      refine ⟨node.marks, getElem?_column here, ?_⟩
      show node.donor.isSome = true
      rw [hnode]
      rfl
  donors id donor h := by
    obtain ⟨node, here, hnode⟩ := exists_node_of_side h
    obtain ⟨hlt, origin, horigin, hspan⟩ := descended id node donor here hnode
    exact ⟨hlt, origin.span, getElem?_column horigin, hspan ▸ getElem?_column here⟩
  owners child owner h := by
    rw [numbered.parent?_columns] at h
    rw [Forest.children_columns]
    exact owners.mem h

/-! ### Asking for a function -/

/-- **An operation that refuses what is not a function, and says why.** -/
structure AsksForFunction (c : Columns) (id : NodeId) (operation : Action α) : Prop where
  /-- It says so of a number without a node, and changes nothing. -/
  unknown : c.shapes[id.raw]? = none → operation c = .error (.unknownNode id) c
  /-- It says of which sort another node is, and changes nothing. -/
  unexpected : ∀ shape, c.shapes[id.raw]? = some shape → shape.tag.isFunction = false →
    operation c = .error (.unexpectedTag id "function" shape.tag) c
  /-- It says such things exactly of what is not a function. -/
  misdirected : (∃ refusal d, operation c = .error refusal d ∧ refusal.isMisdirected = true)
    ↔ ¬ c.IsFunction id

theorem decorateFunction_of_refused {rule : FunctionInfo → Except Refusal (α × FunctionInfo)}
    {refusal : Refusal} (h : c.requireInfo id = .error refusal) :
    decorateFunction id rule c = .error refusal c := by
  simp only [decorateFunction, update, h, bind, Except.bind]

/-- What is no function has nothing recorded, so its shape is looked at. -/
theorem Consistent.requireInfo_eq (consistent : c.Consistent) (h : ¬ c.IsFunction id) :
    c.requireInfo id = (do
      let shape ← entry c.shapes id
      .error (.unexpectedTag id "function" shape.tag)) := by
  have hnone : c.functions id = none :=
    Option.not_isSome_iff_eq_none.1 fun hinfo => h ((consistent.functions id).1 hinfo)
  rw [requireInfo, hnone]

/-- **Functions are told from other numbers by what is recorded of functions.** -/
theorem Consistent.asksForFunction (consistent : c.Consistent)
    {rule : FunctionInfo → Except Refusal (α × FunctionInfo)}
    (others : ∀ info refusal, rule info = .error refusal → refusal.isMisdirected = false) :
    c.AsksForFunction id (decorateFunction id rule) := by
  have unknown : c.shapes[id.raw]? = none →
      decorateFunction id rule c = .error (.unknownNode id) c := fun h => by
    refine decorateFunction_of_refused ((consistent.requireInfo_eq ?_).trans ?_)
    · rintro ⟨shape, hshape, -⟩
      rw [h] at hshape
      cases hshape
    · rw [entry, h]
      rfl
  have unexpected : ∀ shape, c.shapes[id.raw]? = some shape → shape.tag.isFunction = false →
      decorateFunction id rule c = .error (.unexpectedTag id "function" shape.tag) c :=
    fun shape h hshape => by
      refine decorateFunction_of_refused ((consistent.requireInfo_eq ?_).trans ?_)
      · rintro ⟨other, hother, hfunction⟩
        obtain rfl := Option.some.inj (h.symm.trans hother)
        exact absurd (hshape.symm.trans hfunction) Bool.false_ne_true
      · rw [entry, h]
        rfl
  refine ⟨unknown, unexpected, ?_, fun h => ?_⟩
  · -- a function can only be refused by the rule, which says something else
    rintro ⟨refusal, d, hrefused, hmisdirected⟩ hfunction
    obtain ⟨info, hinfo⟩ := Option.isSome_iff_exists.1 ((consistent.functions id).2 hfunction)
    simp only [decorateFunction, update, requireInfo, hinfo, bind, Except.bind] at hrefused
    cases hrule : rule info with
    | ok done =>
        rw [hrule] at hrefused
        cases hrefused
    | error other =>
        rw [hrule] at hrefused
        cases hrefused
        exact absurd ((others info _ hrule).symm.trans hmisdirected) Bool.false_ne_true
  · cases hshape : c.shapes[id.raw]? with
    | none => exact ⟨_, _, unknown hshape, rfl⟩
    | some shape =>
        cases hfunction : shape.tag.isFunction with
        | true => exact absurd ⟨shape, hshape, hfunction⟩ h
        | false => exact ⟨_, _, unexpected shape hshape hfunction, rfl⟩

theorem Consistent.allocateLocal (consistent : c.Consistent) (id : NodeId) (type : TypeId) :
    c.AsksForFunction id (allocateLocal id type) := by
  refine consistent.asksForFunction fun info refusal h => ?_
  have hplace : Forest.nextPlace info.locals.length = .error refusal :=
    Question.error_of_bind_pure h
  unfold Forest.nextPlace at hplace
  split at hplace
  · cases hplace
  · cases hplace
    rfl

theorem Consistent.setIdentifier (consistent : c.Consistent) (id : NodeId) (name : Name) :
    c.AsksForFunction id (setIdentifier id name) := by
  refine consistent.asksForFunction fun info refusal h => ?_
  have hname : Node.once info.identifier name Name.empty id "internal identifier"
      = .error refusal := Question.error_of_bind_pure h
  unfold Node.once at hname
  split at hname
  · cases hname
  · cases hname
    rfl

/-! ### The whole -/

/-- **Side tables match the columns after any changes.**  Whatever changes are made of columns
without nodes, and whatever is handed over, they are the columns of the forest that the changes
make, and everything that is done to them next does the same as in the forest.  The columns have the
same length, the entries of the side tables are those of nodes that may have them, and owners list
the nodes that name them.  So local variables and unique names are refused for a number, as unknown
or as of another sort, exactly if it is not that of a function. -/
theorem tables_of_changes (changes : List Forest.Change) :
    let f := Forest.Change.runAll Forest.empty changes
    let c := runAll empty changes
    (c = f.columns ∧ (∀ edit, run edit c = Step.through Forest.columns (edit.run f))
        ∧ ∀ root, regroupDocument root c
          = Step.through Forest.columns (Forest.regroupDocument root f))
      ∧ c.Consistent
      ∧ ∀ id, (∀ type, c.AsksForFunction id (allocateLocal id type))
        ∧ ∀ name, c.AsksForFunction id (setIdentifier id name) := by
  intro f c
  obtain ⟨hcolumns, numbered⟩ := runAll_columns Forest.Numbered.empty changes
  rw [Forest.columns_empty] at hcolumns
  have hc : c = f.columns := hcolumns
  have consistent : f.columns.Consistent := consistent_columns numbered
    (Forest.recorded_of_moves (Forest.moves_runAll Forest.empty changes))
    (Forest.Suited.empty.runAll changes) (Forest.Descended.empty.runAll changes)
    (Forest.treelike_empty.ownersList.runAll changes)
  rw [hc]
  exact ⟨⟨rfl, fun edit => (run_mirrors edit).same numbered,
      fun root => (regroupDocument_mirrors root).same numbered⟩, consistent,
    fun id => ⟨consistent.allocateLocal id, consistent.setIdentifier id⟩⟩

end Columns

end SyntaxForest
