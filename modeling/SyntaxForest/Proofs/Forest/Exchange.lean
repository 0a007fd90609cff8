/-
**Exchanging the directives of a document.**

To regroup its directives a document first gives them all up and later owns the new list.  The
forest in between is the forest with the root disowned, and giving the document its former list
back undoes that exactly.

Main definitions:

* `Forest.reshape` — the forest with another shape at a node, its children exchanged;
* `Forest.disown` — the forest in which a document has given up its directives.

Main results:

* `Forest.replaceShape_eq_ok_iff`, `Forest.replaceShape_error` — when a shape is exchanged, and
  what a failure leaves behind;
* `Forest.Treelike.replaceShape_empty`, `Forest.Treelike.replaceShape_former` — **giving up the
  directives, and taking them back**;
* `Forest.Treelike.disown`, `Forest.Treelike.reshape` — both keep a forest of trees.
-/

import SyntaxForest.Proofs.Forest.Tree

set_option relaxedAutoImplicit false
set_option autoImplicit false

namespace SyntaxForest

namespace Forest

variable {f g : Forest} {id root child : NodeId} {node : Node} {shape : Shape}

/-! ### Another shape at a node -/

/-- The forest with another shape at a node: the node gives up its children and owns those of the
new shape. -/
def reshape (f : Forest) (id : NodeId) (node : Node) (shape : Shape) : Forest :=
  ⟨(adopt id (release id f.nodes (f.childrenOf node)) (shape.children f.lists)).modify id.raw
    fun node => { node with shape := shape }, f.lists⟩

@[simp] theorem lists_reshape (f : Forest) (id : NodeId) (node : Node) (shape : Shape) :
    (f.reshape id node shape).lists = f.lists := rfl

@[simp] theorem size_reshape (f : Forest) (id : NodeId) (node : Node) (shape : Shape) :
    (f.reshape id node shape).size = f.size := by
  simp [reshape, size]

/-- What an exchange at `id` makes of a node. -/
def reshaped (id : NodeId) (given taken : List NodeId) (shape : Shape) (other : NodeId)
    (node : Node) : Node :=
  if other = id then { adopted id taken other (released id given other node) with shape := shape }
  else adopted id taken other (released id given other node)

/-- An exchange changes nothing in a node but its owner and maybe its shape. -/
theorem exists_reshaped (id : NodeId) (given taken : List NodeId) (shape : Shape)
    (other : NodeId) (node : Node) : ∃ parent, reshaped id given taken shape other node
      = { node with parent := parent, shape := if other = id then shape else node.shape } := by
  have hadopted : ∃ parent, adopted id taken other (released id given other node)
      = { node with parent := parent } := by
    unfold adopted released
    split <;> split <;> exact ⟨_, rfl⟩
  obtain ⟨parent, hparent⟩ := hadopted
  refine ⟨parent, ?_⟩
  rw [reshaped, hparent]
  split <;> rfl

theorem parent_reshaped (id : NodeId) (given taken : List NodeId) (shape : Shape)
    (other : NodeId) (node : Node) : (reshaped id given taken shape other node).parent
      = (adopted id taken other (released id given other node)).parent := by
  unfold reshaped
  split <;> rfl

theorem node?_reshape (f : Forest) (id : NodeId) (node : Node) (shape : Shape)
    (other : NodeId) :
    (f.reshape id node shape).node? other = (f.node? other).map
      (reshaped id (f.childrenOf node) (shape.children f.lists) shape other) := by
  change ((adopt _ _ _).modify id.raw _)[other.raw]? = f.nodes[other.raw]?.map _
  rw [Array.getElem?_modify, getElem?_adopt, getElem?_release]
  cases f.nodes[other.raw]? with
  | none => simp
  | some old =>
      by_cases hid : other = id
      · simp [reshaped, hid]
      · have hraw : id.raw ≠ other.raw := fun h => hid (NodeId.eq_of_raw h.symm)
        simp [reshaped, hid, hraw]

/-- An exchange changes one shape. -/
theorem exists_node?_reshape {other : NodeId} {old : Node} (h : f.node? other = some old) :
    ∃ later, (f.reshape id node shape).node? other = some later
      ∧ later.shape = if other = id then shape else old.shape := by
  obtain ⟨parent, hparent⟩ := exists_reshaped id (f.childrenOf node) (shape.children f.lists) shape
    other old
  exact ⟨_, by rw [node?_reshape, h, Option.map_some, hparent], rfl⟩

/-- An exchange leaves all origins. -/
theorem donor?_reshape (f : Forest) (id : NodeId) (node : Node) (shape : Shape)
    (other : NodeId) : (f.reshape id node shape).donor? other = f.donor? other := by
  rw [donor?, donor?, node?_reshape]
  cases f.node? other with
  | none => rfl
  | some old =>
      obtain ⟨parent, hparent⟩ := exists_reshaped id (f.childrenOf node)
        (shape.children f.lists) shape other old
      rw [Option.map_some, Option.bind_some, Option.bind_some, hparent]

/-- The children of another shape may be owned by a node. -/
structure Accepts (f : Forest) (id : NodeId) (node : Node) (shape : Shape) : Prop where
  nodup : (shape.children f.lists).Nodup
  free : ∀ child ∈ shape.children f.lists, f.IsFree id child
  contents : f.checkContents shape node.span = .ok ()

theorem checkReplacement_eq_ok_iff :
    f.checkReplacement id node shape = .ok () ↔ f.Accepts id node shape := by
  unfold checkReplacement
  constructor
  · intro h
    split at h
    · cases h
    · next hown =>
        obtain ⟨hnodup, hfree⟩ := checkOwnership_eq_ok_iff.1 hown
        exact ⟨hnodup, fun c hc => (hfree c hc).2, h⟩
  · rintro ⟨hnodup, hfree, hcontents⟩
    rw [checkOwnership_eq_ok_iff.2 ⟨hnodup, fun c hc => ⟨List.not_mem_nil, hfree c hc⟩⟩]
    exact hcontents

/-- A shape is exchanged when its children may be owned and the former ones exist. -/
theorem replaceShape_eq_ok_iff : replaceShape id shape f = .ok () g ↔
    ∃ node, f.node? id = some node ∧ f.Accepts id node shape
      ∧ (∀ child ∈ f.childrenOf node, f.contains child) ∧ g = f.reshape id node shape := by
  unfold replaceShape
  constructor
  · intro h
    split at h
    · cases h
    · next node hnode =>
        split at h
        · cases h
        · next haccepts =>
            split at h
            · cases h
            · next hfind =>
                refine ⟨node, hnode, checkReplacement_eq_ok_iff.1 haccepts, fun c hc => ?_,
                  (EStateM.Result.ok.inj h).2.symm⟩
                simpa using List.find?_eq_none.1 hfind c hc
  · rintro ⟨node, hnode, haccepts, hknown, rfl⟩
    have hfind : ((f.childrenOf node).find? fun child => !f.contains child) = none := by
      refine List.find?_eq_none.2 fun c hc => ?_
      simp [hknown c hc]
    simp only [hnode, checkReplacement_eq_ok_iff.2 haccepts, hfind]
    rfl

/-- An exchange that fails changes nothing, and it is refused if the former children exist. -/
theorem replaceShape_error {failure : Failure} (h : replaceShape id shape f = .error failure g) :
    g = f ∧
      ((∀ child ∈ f.childList id, f.contains child) → ∃ refusal, failure = .refused refusal) := by
  unfold replaceShape at h
  split at h
  · obtain ⟨rfl, rfl⟩ := EStateM.Result.error.inj h
    exact ⟨rfl, fun _ => ⟨_, rfl⟩⟩
  · next node hnode =>
      split at h
      · obtain ⟨rfl, rfl⟩ := EStateM.Result.error.inj h
        exact ⟨rfl, fun _ => ⟨_, rfl⟩⟩
      · split at h
        · next child hfind =>
            obtain ⟨rfl, rfl⟩ := EStateM.Result.error.inj h
            refine ⟨rfl, fun hknown => ?_⟩
            have hc := hknown child (childList_of_node? hnode ▸ List.mem_of_find?_eq_some hfind)
            have := List.find?_some hfind
            simp [hc] at this
        · cases h

/-! ### Giving up the directives and taking them back -/

/-- What a node becomes when the document `root` gives up its directives. -/
def orphaned (root other : NodeId) (node : Node) : Node :=
  { node with
    parent := if node.parent = some root then none else node.parent
    shape := if other = root then .document Segment.empty else node.shape }

/-- The forest in which the document `root` has given up its directives. -/
def disown (f : Forest) (root : NodeId) : Forest :=
  ⟨f.nodes.mapIdx fun place node => orphaned root ⟨place⟩ node, f.lists⟩

@[simp] theorem size_disown (f : Forest) (root : NodeId) : (f.disown root).size = f.size := by
  simp [disown, size]

@[simp] theorem lists_disown (f : Forest) (root : NodeId) : (f.disown root).lists = f.lists := rfl

theorem node?_disown (f : Forest) (root other : NodeId) :
    (f.disown root).node? other = (f.node? other).map (orphaned root other) := by
  change (f.nodes.mapIdx _)[other.raw]? = _
  rw [Array.getElem?_mapIdx]
  rfl

theorem mark_disown (f : Forest) (root : NodeId) : (f.disown root).mark = f.mark := by
  simp [mark, disown]

theorem parent?_disown (f : Forest) (root other : NodeId) :
    (f.disown root).parent? other = if f.parent? other = some root then none
      else f.parent? other := by
  rw [parent?, parent?, node?_disown]
  cases f.node? other <;> rfl

/-- After the exchange nobody is owned by the root. -/
theorem parent?_disown_ne_root (f : Forest) (root other : NodeId) :
    (f.disown root).parent? other ≠ some root := by
  rw [parent?_disown]
  split
  · exact fun h => (nomatch h)
  · next h => exact h

theorem childList_disown_of_ne (h : id ≠ root) :
    (f.disown root).childList id = f.childList id := by
  rw [childList, childList, children?, children?, node?_disown]
  cases f.node? id with
  | none => rfl
  | some node =>
      have hshape : (orphaned root id node).shape = node.shape := if_neg h
      simp only [Option.map_some, Option.getD_some, childrenOf, hshape, lists_disown]

theorem childList_disown_self (f : Forest) (root : NodeId) :
    (f.disown root).childList root = [] := by
  rw [childList, children?, node?_disown]
  cases f.node? root with
  | none => rfl
  | some node =>
      have hshape : (orphaned root root node).shape = .document Segment.empty := if_pos rfl
      simp only [Option.map_some, Option.getD_some, childrenOf, hshape]
      rfl

/-- The document gives up its directives. -/
theorem Treelike.replaceShape_empty (tree : f.Treelike) (here : f.node? root = some node) :
    replaceShape root (.document Segment.empty) f = .ok () (f.disown root) := by
  refine replaceShape_eq_ok_iff.2 ⟨node, here, ⟨List.nodup_nil, fun c hc => (nomatch hc), rfl⟩,
    fun c hc => ?_, ext_node? (fun other => ?_) rfl⟩
  · obtain ⟨child, hchild, -⟩ := tree.node?_of_mem (childList_of_node? here ▸ hc)
    rw [contains, hchild]
    rfl
  · rw [node?_disown, node?_reshape]
    cases ho : f.node? other with
    | none => rfl
    | some old =>
        have hlinked : other ∈ f.childrenOf node ↔ old.parent = some root := by
          rw [← childList_of_node? here, tree.linked, parent?_of_node? ho]
        simp only [Option.map_some, orphaned, reshaped, adopted, released, Shape.children,
          Segment.entries_empty, List.not_mem_nil, if_false, hlinked, and_self]
        by_cases hp : old.parent = some root <;> by_cases hr : other = root <;> simp [hp, hr]

/-- **The document takes its directives back, and nothing has changed.** -/
theorem Treelike.replaceShape_former (tree : f.Treelike) {former : Segment}
    (here : f.node? root = some node) (document : node.shape = .document former) :
    replaceShape root (.document former) (f.disown root) = .ok () f := by
  have hchildren : Shape.children f.lists (.document former) = f.childList root := by
    rw [childList_of_node? here, childrenOf, document]
  have hhere : (f.disown root).node? root = some (orphaned root root node) := by
    rw [node?_disown, here, Option.map_some]
  have hnone : (f.disown root).childrenOf (orphaned root root node) = [] := by
    rw [← childList_of_node? hhere, childList_disown_self]
  refine replaceShape_eq_ok_iff.2 ⟨_, hhere, ⟨?_, ?_, rfl⟩, ?_, ?_⟩
  · rw [lists_disown, hchildren]
    exact tree.nodup root
  · intro c hc
    rw [lists_disown, hchildren] at hc
    obtain ⟨child, hchild, hparent⟩ := tree.node?_of_mem hc
    refine ⟨orphaned root c child, by rw [node?_disown, hchild, Option.map_some], Or.inl ?_⟩
    exact if_pos hparent
  · rw [hnone]
    exact List.forall_mem_nil _
  · -- node by node: what was given up is owned again, and the contents are the former ones
    refine ext_node? (fun other => ?_) rfl
    rw [node?_reshape, node?_disown, Option.map_map, hnone, lists_disown, hchildren]
    cases ho : f.node? other with
    | none => rfl
    | some old =>
        have hlinked : other ∈ f.childList root ↔ old.parent = some root := by
          rw [tree.linked, parent?_of_node? ho]
        refine congrArg some ?_
        simp only [Function.comp, orphaned, reshaped, adopted, released, List.not_mem_nil,
          false_and, if_false, hlinked]
        by_cases hr : other = root
        · subst hr
          rw [here] at ho
          cases ho
          by_cases hp : node.parent = some other
          · simp only [hp, if_true, ← document]
            rw [← hp]
          · simp only [hp, if_false, if_true, ← document]
        · by_cases hp : old.parent = some root
          · simp only [hp, hr, if_true, if_false]
            rw [← hp]
          · simp only [hp, hr, if_false]

/-- A document without directives leaves a forest of trees. -/
theorem Treelike.disown (tree : f.Treelike) (root : NodeId) : (f.disown root).Treelike where
  stored := by
    intro id node h
    rw [node?_disown] at h
    obtain ⟨old, hold, rfl⟩ := Option.map_eq_some_iff.1 h
    by_cases hid : id = root
    · have hshape : (orphaned root id old).shape = .document Segment.empty := if_pos hid
      rw [hshape]
      intro s hs
      obtain rfl := List.mem_singleton.1 hs
      exact Segment.inside_empty _
    · have hshape : (orphaned root id old).shape = old.shape := if_neg hid
      rw [hshape]
      exact tree.stored hold
  nodup id := by
    by_cases hid : id = root
    · rw [hid, childList_disown_self]
      exact List.nodup_nil
    · rw [childList_disown_of_ne hid]
      exact tree.nodup id
  linked owner child := by
    by_cases ho : owner = root
    · rw [ho, childList_disown_self]
      exact ⟨fun h => (nomatch h), fun h => absurd h (parent?_disown_ne_root f root child)⟩
    · rw [childList_disown_of_ne ho, tree.linked, parent?_disown]
      split
      · next hroot =>
          rw [hroot]
          exact ⟨fun h => absurd (Option.some.inj h).symm ho, fun h => (nomatch h)⟩
      · exact Iff.rfl
  ranked := by
    obtain ⟨rank, hrank⟩ := tree.ranked
    refine ⟨rank, fun {owner child} h => hrank ?_⟩
    rw [parent?_disown] at h
    split at h
    · cases h
    · exact h

/-! ### Owning a new list of directives -/

theorem parent?_reshape (here : f.node? id = some node) (childless : f.childList id = [])
    (accepts : f.Accepts id node shape) (other : NodeId) :
    (f.reshape id node shape).parent? other
      = if other ∈ shape.children f.lists then some id else f.parent? other := by
  rw [childList_of_node? here] at childless
  rw [parent?, node?_reshape, childless]
  by_cases hm : other ∈ shape.children f.lists
  · obtain ⟨child, hchild, -⟩ := accepts.free other hm
    rw [if_pos hm, hchild, Option.map_some]
    unfold reshaped
    split <;> simp only [Option.bind_some, adopted, if_pos hm]
  · rw [if_neg hm, parent?]
    cases f.node? other with
    | none => rfl
    | some old =>
        have hreleased : released id [] other old = old := if_neg fun h => List.not_mem_nil h.1
        rw [Option.map_some, Option.bind_some, Option.bind_some]
        unfold reshaped
        split <;> simp only [adopted_of_notMem hm, hreleased]

theorem childList_reshape_self (here : f.node? id = some node) :
    (f.reshape id node shape).childList id = shape.children f.lists := by
  rw [childList, children?, node?_reshape, here]
  simp only [Option.map_some, Option.getD_some, childrenOf, reshaped, if_true, lists_reshape]

theorem childList_reshape_of_ne {other : NodeId} (hne : other ≠ id) :
    (f.reshape id node shape).childList other = f.childList other := by
  rw [childList, childList, children?, children?, node?_reshape]
  cases f.node? other with
  | none => rfl
  | some old =>
      simp only [Option.map_some, Option.getD_some, childrenOf, reshaped, if_neg hne,
        adopted_shape, released_shape, lists_reshape]

/-- A node without children comes to own some that rank above it. -/
theorem Treelike.reshape (tree : f.Treelike) (here : f.node? id = some node)
    (childless : f.childList id = []) (accepts : f.Accepts id node shape)
    (stored : shape.Stored f.lists)
    (ranked : ∃ rank : NodeId → Nat,
      (∀ {owner child}, f.parent? child = some owner → rank owner < rank child)
        ∧ ∀ child ∈ shape.children f.lists, rank id < rank child) :
    (f.reshape id node shape).Treelike where
  stored := by
    intro other old h
    rw [node?_reshape] at h
    obtain ⟨former, hformer, rfl⟩ := Option.map_eq_some_iff.1 h
    unfold reshaped
    split
    · exact stored
    · rw [adopted_shape, released_shape]
      exact tree.stored hformer
  nodup other := by
    by_cases ho : other = id
    · rw [ho, childList_reshape_self here]
      exact accepts.nodup
    · rw [childList_reshape_of_ne ho]
      exact tree.nodup other
  linked owner child := by
    have hnone : f.parent? child ≠ some id := by
      rw [ne_eq, ← tree.linked, childless]
      exact List.not_mem_nil
    rw [parent?_reshape here childless accepts]
    by_cases ho : owner = id
    · subst ho
      rw [childList_reshape_self here]
      split
      · next hm => exact ⟨fun _ => rfl, fun _ => hm⟩
      · next hm => exact ⟨fun h => absurd h hm, fun h => absurd h hnone⟩
    · rw [childList_reshape_of_ne ho, tree.linked]
      split
      · next hm =>
          -- a node that is free for `id` and not owned by it has no owner
          obtain ⟨old, hold, hfree⟩ := accepts.free child hm
          rw [parent?_of_node? hold] at hnone ⊢
          rw [hfree.resolve_right hnone]
          exact ⟨fun h => (nomatch h), fun h => absurd (Option.some.inj h).symm ho⟩
      · exact Iff.rfl
  ranked := by
    obtain ⟨rank, hrank, hchildren⟩ := ranked
    refine ⟨rank, fun {owner child} h => ?_⟩
    rw [parent?_reshape here childless accepts] at h
    split at h
    · next hm =>
        obtain rfl := Option.some.inj h
        exact hchildren child hm
    · exact hrank h

end Forest

end SyntaxForest
