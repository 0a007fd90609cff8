/-
**What a change does to the nodes.**

The operations on a forest are written as folds over its arrays.  This module says once what each
of them does to the node of a number, so that nothing after it opens a fold.

Main definitions:

* `Forest.parent?`, `Forest.childList` — the owner and the children of a number, none and nothing
  for a number without a node;
* `Node.locals` — the local variables of a node, nothing for one that is no function.

Main results:

* `Forest.ext_node?` — a forest is its nodes and its store;
* `Forest.getElem?_adopt`, `Forest.getElem?_release` — adopting and releasing change nothing but
  owners;
* `Forest.node?_add_of_lt`, `Forest.node?_add_self` — a new node stands after the others and owns
  its children;
* `Forest.checkOwnership_eq_ok_iff` — what the rule of ownership asks for;
* `Forest.insert_eq_ok_iff`, `Forest.insertDerived_eq_ok_iff`, `Forest.storeList_eq_ok_iff` — what
  making a node and keeping a sequence can do.
-/

import SyntaxForest.Forest.Edit
import SyntaxForest.Forest.Regroup

set_option relaxedAutoImplicit false
set_option autoImplicit false

namespace SyntaxForest

theorem NodeId.eq_of_raw {id : NodeId} {place : Nat} (h : id.raw = place) : id = ⟨place⟩ := by
  rw [← h]

/-- The types of the local variables of a node; nothing for a node that is no function. -/
def Node.locals (node : Node) : List TypeId := (node.info.map (·.locals)).getD []

theorem Node.locals_of_info {node : Node} {info : FunctionInfo} (h : node.info = some info) :
    node.locals = info.locals := by
  rw [Node.locals, h, Option.map_some, Option.getD_some]

namespace Forest

def parent? (f : Forest) (id : NodeId) : Option NodeId := (f.node? id).bind (·.parent)

/-- The children of a node; nothing for a number without a node. -/
def childList (f : Forest) (id : NodeId) : List NodeId := (f.children? id).getD []

variable {f g : Forest} {id owner child : NodeId} {node : Node} {shape : Shape} {span : Span}

theorem parent?_of_node? (h : f.node? id = some node) : f.parent? id = node.parent := by
  rw [parent?, h, Option.bind_some]

theorem children?_of_node? (h : f.node? id = some node) :
    f.children? id = some (f.childList id) := by
  rw [childList, children?, h, Option.map_some, Option.getD_some]

theorem childList_of_node? (h : f.node? id = some node) : f.childList id = f.childrenOf node := by
  rw [childList, children?, h, Option.map_some, Option.getD_some]

theorem parent?_eq_some_iff :
    f.parent? child = some owner ↔ ∃ node, f.node? child = some node ∧ node.parent = some owner :=
  Option.bind_eq_some_iff

theorem mem_childList_iff :
    child ∈ f.childList owner ↔ ∃ node, f.node? owner = some node ∧ child ∈ f.childrenOf node := by
  rw [childList, children?]
  cases f.node? owner <;> simp

theorem locals_of_node? (h : f.node? id = some node) : f.locals id = node.locals := by
  rw [locals, info?, h, Option.bind_some]
  rfl

theorem node?_isSome_iff : (∃ node, f.node? id = some node) ↔ id.raw < f.size := by
  rw [← contains_iff, contains, Option.isSome_iff_exists]

theorem lt_size_of_node? (h : f.node? id = some node) : id.raw < f.size :=
  node?_isSome_iff.1 ⟨node, h⟩

theorem node?_eq_none_of_le (h : f.size ≤ id.raw) : f.node? id = none := by
  cases hn : f.node? id with
  | none => rfl
  | some node => exact absurd (lt_size_of_node? hn) (Nat.not_lt.2 h)

theorem parent?_of_le (h : f.size ≤ id.raw) : f.parent? id = none := by
  rw [parent?, node?_eq_none_of_le h, Option.bind_none]

theorem childList_of_le (h : f.size ≤ id.raw) : f.childList id = [] := by
  rw [childList, children?, node?_eq_none_of_le h, Option.map_none, Option.getD_none]

/-- A forest is its nodes and its store. -/
theorem ext_node? (nodes : ∀ id, f.node? id = g.node? id) (lists : f.lists = g.lists) : f = g := by
  obtain ⟨fnodes, flists⟩ := f
  obtain ⟨gnodes, glists⟩ := g
  have hnodes : fnodes = gnodes := Array.ext_getElem? fun i => nodes ⟨i⟩
  have hlists : flists = glists := lists
  rw [hnodes, hlists]

/-! ### Adopting and releasing -/

/-- What adopting by `owner` makes of a node that is one of `children` or not. -/
def adopted (owner : NodeId) (children : List NodeId) (id : NodeId) (node : Node) : Node :=
  if id ∈ children then { node with parent := some owner } else node

/-- What releasing by `owner` makes of a node that is one of `children` or not. -/
def released (owner : NodeId) (children : List NodeId) (id : NodeId) (node : Node) : Node :=
  if id ∈ children ∧ node.parent = some owner then { node with parent := none } else node

theorem adopted_of_mem {children : List NodeId} (h : id ∈ children) :
    adopted owner children id node = { node with parent := some owner } := if_pos h

theorem adopted_of_notMem {children : List NodeId} (h : id ∉ children) :
    adopted owner children id node = node := if_neg h

@[simp] theorem adopted_shape (children : List NodeId) :
    (adopted owner children id node).shape = node.shape := by
  unfold adopted; split <;> rfl

@[simp] theorem released_shape (children : List NodeId) :
    (released owner children id node).shape = node.shape := by
  unfold released; split <;> rfl

theorem getElem?_adopt (owner : NodeId) (nodes : Array Node) (children : List NodeId) (i : Nat) :
    (adopt owner nodes children)[i]? = nodes[i]?.map (adopted owner children ⟨i⟩) := by
  unfold adopt
  induction children generalizing nodes with
  | nil =>
      have : adopted owner [] ⟨i⟩ = id := by
        funext node
        exact adopted_of_notMem List.not_mem_nil
      rw [List.foldl_nil, this, Option.map_id, id]
  | cons child rest ih =>
      rw [List.foldl_cons, ih, Array.getElem?_modify]
      cases nodes[i]? with
      | none => simp
      | some node =>
          by_cases hc : child.raw = i
          · have hi : (⟨i⟩ : NodeId) = child := by rw [← hc]
            by_cases hr : child ∈ rest <;> simp [adopted, hi, hc, hr]
          · have hi : (⟨i⟩ : NodeId) ≠ child := fun h => hc (by rw [← h])
            simp [adopted, hi, hc]

theorem getElem?_release (owner : NodeId) (nodes : Array Node) (children : List NodeId)
    (i : Nat) :
    (release owner nodes children)[i]? = nodes[i]?.map (released owner children ⟨i⟩) := by
  unfold release
  induction children generalizing nodes with
  | nil =>
      have : released owner [] ⟨i⟩ = id := by
        funext node
        exact if_neg fun h => List.not_mem_nil h.1
      rw [List.foldl_nil, this, Option.map_id, id]
  | cons child rest ih =>
      rw [List.foldl_cons, ih, Array.getElem?_modify]
      cases nodes[i]? with
      | none => simp
      | some node =>
          by_cases hc : child.raw = i
          · have hi : (⟨i⟩ : NodeId) = child := by rw [← hc]
            by_cases hp : node.parent = some owner <;> simp [released, hi, hc, hp]
          · have hi : (⟨i⟩ : NodeId) ≠ child := fun h => hc (by rw [← h])
            simp [released, hi, hc]

@[simp] theorem size_adopt (owner : NodeId) (nodes : Array Node) (children : List NodeId) :
    (adopt owner nodes children).size = nodes.size := by
  unfold adopt
  induction children generalizing nodes with
  | nil => rfl
  | cons child rest ih => rw [List.foldl_cons, ih, Array.size_modify]

@[simp] theorem size_release (owner : NodeId) (nodes : Array Node) (children : List NodeId) :
    (release owner nodes children).size = nodes.size := by
  unfold release
  induction children generalizing nodes with
  | nil => rfl
  | cons child rest ih => rw [List.foldl_cons, ih, Array.size_modify]

/-! ### A node more -/

@[simp] theorem size_add (f : Forest) (shape : Shape) (span : Span) (donor : Option NodeId) :
    (f.add shape span donor).size = f.size + 1 := by
  simp [add, size]

@[simp] theorem lists_add (f : Forest) (shape : Shape) (span : Span) (donor : Option NodeId) :
    (f.add shape span donor).lists = f.lists := rfl

/-- The nodes that were there are adopted or left as they are. -/
theorem node?_add_of_lt {donor : Option NodeId} (h : id.raw < f.size) :
    (f.add shape span donor).node? id
      = (f.node? id).map (adopted ⟨f.size⟩ (shape.children f.lists) id) := by
  have hpush : (f.nodes.push (Node.fresh shape span donor))[id.raw]? = f.nodes[id.raw]? := by
    rw [Array.getElem?_push]
    exact if_neg (Nat.ne_of_lt h)
  change (adopt _ (f.nodes.push _) _)[id.raw]? = _
  rw [getElem?_adopt, hpush]
  rfl

theorem exists_node?_add {donor : Option NodeId} (h : f.node? id = some node) :
    ∃ later, (f.add shape span donor).node? id = some later ∧ later.shape = node.shape := by
  rw [node?_add_of_lt (lt_size_of_node? h), h, Option.map_some]
  exact ⟨_, rfl, adopted_shape _⟩

/-- The new node stands after the others. -/
theorem node?_add_self {donor : Option NodeId}
    (h : (⟨f.size⟩ : NodeId) ∉ shape.children f.lists) :
    (f.add shape span donor).node? ⟨f.size⟩ = some (Node.fresh shape span donor) := by
  have hpush : (f.nodes.push (Node.fresh shape span donor))[f.size]?
      = some (Node.fresh shape span donor) := Array.getElem?_push_size
  change (adopt _ (f.nodes.push _) _)[f.size]? = _
  rw [getElem?_adopt, hpush, Option.map_some]
  exact congrArg some (adopted_of_notMem h)

/-! ### Another node in the place of a node -/

@[simp] theorem size_replace (f : Forest) (id : NodeId) (node : Node) :
    (f.replace id node).size = f.size := Array.size_setIfInBounds

@[simp] theorem lists_replace (f : Forest) (id : NodeId) (node : Node) :
    (f.replace id node).lists = f.lists := rfl

theorem node?_replace_self {old : Node} (h : f.node? id = some old) :
    (f.replace id node).node? id = some node := by
  have hlt : id.raw < f.nodes.size := lt_size_of_node? h
  change (f.nodes.setIfInBounds id.raw node)[id.raw]? = _
  rw [Array.getElem?_setIfInBounds_self_of_lt hlt]

theorem node?_replace_of_ne {other : NodeId} (h : other ≠ id) :
    (f.replace id node).node? other = f.node? other := by
  have hne : id.raw ≠ other.raw := fun e => h (NodeId.eq_of_raw e.symm)
  exact Array.getElem?_setIfInBounds_ne hne

/-! ### What the rules ask for -/

theorem nextPlace_eq_ok_iff {used place : Nat} :
    nextPlace used = .ok place ↔ used < maxWord ∧ place = used := by
  unfold nextPlace
  split
  · next h => exact ⟨fun e => ⟨h, (Except.ok.inj e).symm⟩, fun e => by rw [e.2]⟩
  · next h => exact ⟨fun e => (nomatch e), fun e => absurd e.1 h⟩

/-- A node that exists and that nobody but `owner` owns. -/
def IsFree (f : Forest) (owner child : NodeId) : Prop :=
  ∃ node, f.node? child = some node ∧ (node.parent = none ∨ node.parent = some owner)

theorem IsFree.lt_size (h : f.IsFree owner child) : child.raw < f.size := by
  obtain ⟨node, hnode, _⟩ := h
  exact lt_size_of_node? hnode

private theorem filter_ne_eq_none_iff {parent : Option NodeId} :
    parent.filter (· ≠ owner) = none ↔ parent = none ∨ parent = some owner := by
  cases parent with
  | none => simp
  | some p => simp [Option.filter_eq_none_iff]

theorem checkOwnership_eq_ok_iff {earlier children : List NodeId} :
    f.checkOwnership owner earlier children = .ok () ↔
      children.Nodup ∧ ∀ child ∈ children, child ∉ earlier ∧ f.IsFree owner child := by
  induction children generalizing earlier with
  | nil => simp [checkOwnership]
  | cons child rest ih =>
      unfold checkOwnership
      split
      · next hn =>
          -- no such node
          refine ⟨fun h => (nomatch h), fun h => ?_⟩
          obtain ⟨_, node, hnode, _⟩ := h.2 child List.mem_cons_self
          rw [hn] at hnode
          cases hnode
      · next node hn =>
          split
          · next other hp =>
              -- it has another owner
              refine ⟨fun h => (nomatch h), fun h => ?_⟩
              obtain ⟨_, node', hnode, hfree⟩ := h.2 child List.mem_cons_self
              rw [hn] at hnode
              cases hnode
              rw [filter_ne_eq_none_iff.2 hfree] at hp
              cases hp
          · next hp =>
              have hfree : f.IsFree owner child := ⟨node, hn, filter_ne_eq_none_iff.1 hp⟩
              split
              · next he =>
                  exact ⟨fun h => (nomatch h), fun h => absurd he (h.2 child List.mem_cons_self).1⟩
              · next he =>
                  simp only [ih, List.nodup_cons, List.mem_cons, forall_eq_or_imp, not_or]
                  constructor
                  · rintro ⟨hnodup, hrest⟩
                    exact ⟨⟨fun hm => (hrest child hm).1.1 rfl, hnodup⟩, ⟨he, hfree⟩,
                      fun c hc => ⟨(hrest c hc).1.2, (hrest c hc).2⟩⟩
                  · rintro ⟨⟨hnotMem, hnodup⟩, _, hrest⟩
                    exact ⟨hnodup, fun c hc =>
                      ⟨⟨fun hcc => hnotMem (hcc ▸ hc), (hrest c hc).1⟩, (hrest c hc).2⟩⟩

/-- A node of a shape can be made over the children of the shape. -/
structure Admits (f : Forest) (shape : Shape) (span : Span) : Prop where
  room : f.size < maxWord
  nodup : (shape.children f.lists).Nodup
  free : ∀ child ∈ shape.children f.lists, f.IsFree ⟨f.size⟩ child
  contents : f.checkContents shape span = .ok ()

theorem checkNode_eq_ok_iff : f.checkNode shape span = .ok id ↔
    f.Admits shape span ∧ id = ⟨f.size⟩ := by
  unfold checkNode
  constructor
  · intro h
    split at h
    · cases h
    · next place hplace =>
        obtain ⟨hroom, rfl⟩ := nextPlace_eq_ok_iff.1 hplace
        split at h
        · cases h
        · next hown =>
            obtain ⟨hnodup, hfree⟩ := checkOwnership_eq_ok_iff.1 hown
            split at h
            · cases h
            · next hcontents =>
                exact ⟨⟨hroom, hnodup, fun c hc => (hfree c hc).2, hcontents⟩,
                  (Except.ok.inj h).symm⟩
  · rintro ⟨⟨hroom, hnodup, hfree, hcontents⟩, rfl⟩
    rw [nextPlace_eq_ok_iff.2 ⟨hroom, rfl⟩]
    simp only [checkOwnership_eq_ok_iff.2
      ⟨hnodup, fun c hc => ⟨List.not_mem_nil, hfree c hc⟩⟩, hcontents]

theorem Admits.notMem_children (h : f.Admits shape span) :
    (⟨f.size⟩ : NodeId) ∉ shape.children f.lists := by
  intro hm
  exact Nat.lt_irrefl _ (h.free _ hm).lt_size

/-- A node of the forest with a node more was there before, or it is the new one. -/
theorem Admits.node?_add_cases {donor : Option NodeId} (admits : f.Admits shape span)
    (here : (f.add shape span donor).node? id = some node) :
    (∃ old, f.node? id = some old
        ∧ node = adopted ⟨f.size⟩ (shape.children f.lists) id old)
      ∨ id = ⟨f.size⟩ ∧ node = Node.fresh shape span donor := by
  have hlt := lt_size_of_node? here
  rw [size_add] at hlt
  rcases Nat.lt_succ_iff_lt_or_eq.1 hlt with hlt | heq
  · rw [node?_add_of_lt hlt] at here
    obtain ⟨old, hold, heq⟩ := Option.map_eq_some_iff.1 here
    exact Or.inl ⟨old, hold, heq.symm⟩
  · obtain rfl := NodeId.eq_of_raw heq
    rw [node?_add_self admits.notMem_children] at here
    exact Or.inr ⟨rfl, (Option.some.inj here).symm⟩

/-! ### What making a node and keeping a sequence can do -/

theorem insert_eq_ok_iff : insert shape span f = .ok id g ↔
    f.Admits shape span ∧ id = ⟨f.size⟩ ∧ g = f.add shape span none := by
  unfold insert
  constructor
  · intro h
    split at h
    · cases h
    · next hid =>
        cases h
        obtain ⟨hadmits, rfl⟩ := checkNode_eq_ok_iff.1 hid
        exact ⟨hadmits, rfl, rfl⟩
  · rintro ⟨hadmits, rfl, rfl⟩
    rw [checkNode_eq_ok_iff.2 ⟨hadmits, rfl⟩]

theorem insertDerived_eq_ok_iff {donor : NodeId} : insertDerived shape donor f = .ok id g ↔
    ∃ node, f.node? donor = some node ∧ f.Admits shape node.span ∧ id = ⟨f.size⟩
      ∧ g = f.add shape node.span (some donor) := by
  unfold insertDerived
  constructor
  · intro h
    split at h
    · cases h
    · next node hnode =>
        split at h
        · cases h
        · next hid =>
            cases h
            obtain ⟨hadmits, rfl⟩ := checkNode_eq_ok_iff.1 hid
            exact ⟨node, hnode, hadmits, rfl, rfl⟩
  · rintro ⟨node, hnode, hadmits, rfl, rfl⟩
    simp only [hnode, checkNode_eq_ok_iff.2 ⟨hadmits, rfl⟩]

/-- The forest with a sequence more in its store. -/
def keep (f : Forest) (ids : List NodeId) : Forest := ⟨f.nodes, f.lists ++ ids⟩

@[simp] theorem size_keep (f : Forest) (ids : List NodeId) : (f.keep ids).size = f.size := rfl

@[simp] theorem node?_keep (f : Forest) (ids : List NodeId) (id : NodeId) :
    (f.keep ids).node? id = f.node? id := rfl

@[simp] theorem lists_keep (f : Forest) (ids : List NodeId) :
    (f.keep ids).lists = f.lists ++ ids := rfl

@[simp] theorem keep_nil (f : Forest) : f.keep [] = f := by
  simp [keep]

/-- Keeping a sequence puts it at the end of the store; an empty sequence has the empty
segment. -/
theorem storeList_eq_ok_iff {ids : List NodeId} {what : String} {segment : Segment} :
    storeList ids what f = .ok segment g ↔
      g = f.keep ids ∧
        (ids = [] ∧ segment = Segment.empty ∨
          ids ≠ [] ∧ ids.length ≤ maxListLength ∧ f.lists.size < maxWord
            ∧ segment = ⟨f.lists.size, ids.length⟩) := by
  unfold storeList
  cases ids with
  | nil =>
      rw [if_pos List.isEmpty_nil, keep_nil]
      constructor
      · intro h
        cases h
        exact ⟨rfl, Or.inl ⟨rfl, rfl⟩⟩
      · rintro ⟨rfl, ⟨_, rfl⟩ | ⟨h, _⟩⟩
        · rfl
        · exact absurd rfl h
  | cons first rest =>
      simp only [List.isEmpty_cons, Bool.false_eq_true, if_false]
      constructor
      · intro h
        split at h
        · cases h
        · next hlong =>
            split at h
            · cases h
            · next start hstart =>
                obtain ⟨hroom, rfl⟩ := nextPlace_eq_ok_iff.1 hstart
                cases h
                exact ⟨rfl, Or.inr ⟨List.cons_ne_nil _ _, Nat.not_lt.1 hlong, hroom, rfl⟩⟩
      · rintro ⟨rfl, ⟨h, _⟩ | ⟨_, hshort, hroom, rfl⟩⟩
        · exact absurd h (List.cons_ne_nil _ _)
        · rw [if_neg (Nat.not_lt.2 hshort), nextPlace_eq_ok_iff.2 ⟨hroom, rfl⟩]
          rfl

end Forest

end SyntaxForest
