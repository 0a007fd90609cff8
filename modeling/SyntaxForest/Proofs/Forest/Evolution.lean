/-
**What changes leave of a forest.**

A forest that is changed keeps its nodes, but not all of them keep everything: owners come and go,
decorations are written, a literal takes another value, and a document owns other directives.  This
module says what stays, whatever is handed over: the sort of a node, its place and its origin, its
contents unless it is a document or a literal, what its cells hold, what is in the store, and what
is owned by a node that is no document.

Main definitions:

* `Node.Becomes` — what changes may make of a node;
* `Forest.Evolves` — what changes may make of a forest.

Main results:

* `Forest.Evolves.act`, `Forest.Evolves.exchange`, `Forest.Evolves.rollback` — the moves;
* `Forest.Moves.preserves` — what evolution and new nodes preserve, moves preserve;
* `Forest.evolves_runAll` — **whatever changes are made, a forest only evolves**;
* `Forest.Evolves.abides`, `Forest.Evolves.list_eq` — so functions and full segments stay what they
  are.
-/

import SyntaxForest.Proofs.Forest.Abiding
import SyntaxForest.Proofs.Forest.Moves

set_option relaxedAutoImplicit false
set_option autoImplicit false

namespace SyntaxForest

/-- What changes may make of a node. -/
structure Node.Becomes (old new : Node) : Prop where
  tag : new.shape.tag = old.shape.tag
  /-- Contents that never change stay. -/
  shape : old.shape.isLasting = true → new.shape = old.shape
  span : new.span = old.span
  donor : new.donor = old.donor
  parenthesized : old.parenthesized = true → new.parenthesized = true
  errors : old.errors <+: new.errors
  /-- What is recorded of a function is recorded of functions only. -/
  info : new.info.isSome = old.info.isSome
  locals : old.locals.length ≤ new.locals.length
  /-- What is written once stays. -/
  settled : ∀ {cell value}, old.read cell = some value → new.read cell = some value

namespace Node.Becomes

variable {old new last : Node}

theorem refl (node : Node) : node.Becomes node :=
  ⟨rfl, fun _ => rfl, rfl, rfl, fun h => h, List.prefix_refl _, rfl, Nat.le_refl _, fun h => h⟩

theorem trans (first : old.Becomes new) (second : new.Becomes last) : old.Becomes last where
  tag := second.tag.trans first.tag
  shape lasting := by
    have hfirst := first.shape lasting
    rw [← hfirst] at lasting ⊢
    exact second.shape lasting
  span := second.span.trans first.span
  donor := second.donor.trans first.donor
  parenthesized h := second.parenthesized (first.parenthesized h)
  errors := first.errors.trans second.errors
  info := second.info.trans first.info
  locals := Nat.le_trans first.locals second.locals
  settled held := second.settled (first.settled held)

theorem parent (node : Node) (parent : Option NodeId) :
    node.Becomes { node with parent := parent } :=
  ⟨rfl, fun _ => rfl, rfl, rfl, fun h => h, List.prefix_refl _, rfl, Nat.le_refl _,
    settled_of_eq rfl rfl rfl rfl⟩

theorem redecorated (h : old.Redecorated new) : old.Becomes new where
  tag := h.tag
  shape lasting := by
    rcases h.shape with heq | ⟨a, b, ha, -, -⟩
    · exact heq
    · rw [ha] at lasting
      cases lasting
  span := h.span
  donor := h.donor
  parenthesized := h.parenthesized
  errors := h.errors
  info := h.info
  locals := h.locals
  settled := h.settled

/-- A document may own other directives. -/
theorem document (node : Node) (parent : Option NodeId) (directives : Segment)
    (tag : node.shape.tag = .document) :
    node.Becomes { node with parent := parent, shape := .document directives } where
  tag := tag.symm
  shape lasting := by
    cases hshape : node.shape with
    | document former =>
        rw [hshape] at lasting
        cases lasting
    | literal value =>
        rw [hshape] at lasting
        cases lasting
    | _ =>
        rw [hshape] at tag
        cases tag
  span := rfl
  donor := rfl
  parenthesized h := h
  errors := List.prefix_refl _
  info := rfl
  locals := Nat.le_refl _
  settled := settled_of_eq rfl rfl rfl rfl

end Node.Becomes

namespace Forest

/-- What changes may make of a forest. -/
structure Evolves (f g : Forest) : Prop where
  lists : ∃ more : List NodeId, g.lists = f.lists ++ more
  node : ∀ {id node}, f.node? id = some node → ∃ later, g.node? id = some later ∧ node.Becomes later
  /-- What is owned by a node that is no document is owned by it for ever. -/
  owned : ∀ {id owner tag}, f.parent? id = some owner → f.tag? owner = some tag →
    tag ≠ .document → g.parent? id = some owner

variable {f g h : Forest} {id root : NodeId} {node : Node} {tag : Tag} {shape : Shape}
  {s : Segment}

/-- A node that is free for another one and has an owner is owned by that one. -/
theorem IsFree.parent?_eq {owner other : NodeId}
    (free : f.IsFree other id) (hparent : f.parent? id = some owner) : owner = other := by
  obtain ⟨node, hnode, hfree⟩ := free
  rw [parent?_of_node? hnode] at hparent
  rw [hparent] at hfree
  exact Option.some.inj (hfree.resolve_left fun h => (nomatch h))

namespace Evolves

theorem refl (f : Forest) : f.Evolves f :=
  ⟨⟨[], by simp⟩, fun h => ⟨_, h, Node.Becomes.refl _⟩, fun h _ _ => h⟩

theorem tag? (evolves : f.Evolves g) (htag : f.tag? id = some tag) : g.tag? id = some tag := by
  obtain ⟨node, hnode, rfl⟩ := tag?_eq_some_iff.1 htag
  obtain ⟨later, hlater, becomes⟩ := evolves.node hnode
  rw [tag?_of_node? hlater, becomes.tag]

theorem trans (first : f.Evolves g) (second : g.Evolves h) : f.Evolves h where
  lists := by
    obtain ⟨more, hmore⟩ := first.lists
    obtain ⟨more', hmore'⟩ := second.lists
    refine ⟨more ++ more', ?_⟩
    rw [hmore', hmore, grown_grown]
  node hnode := by
    obtain ⟨later, hlater, becomes⟩ := first.node hnode
    obtain ⟨last, hlast, becomes'⟩ := second.node hlater
    exact ⟨last, hlast, becomes.trans becomes'⟩
  owned hparent htag hne := second.owned (first.owned hparent htag hne) (first.tag? htag) hne

/-- There are no fewer nodes. -/
theorem size (evolves : f.Evolves g) : f.size ≤ g.size := by
  cases hsize : f.size with
  | zero => exact Nat.zero_le _
  | succ last =>
      obtain ⟨node, hnode⟩ := node?_isSome_iff.2 (show (⟨last⟩ : NodeId).raw < f.size by
        rw [hsize]
        exact Nat.lt_succ_self last)
      obtain ⟨later, hlater, -⟩ := evolves.node hnode
      exact lt_size_of_node? hlater

/-! ### Moves -/

/-- A node that is made only lets a forest evolve. -/
theorem add {span : Span} (admits : f.Admits shape span) (donor : Option NodeId) :
    f.Evolves (f.add shape span donor) where
  lists := ⟨[], by simp⟩
  node {id node} hnode := by
    refine ⟨_, by rw [node?_add_of_lt (lt_size_of_node? hnode), hnode, Option.map_some], ?_⟩
    unfold adopted
    split
    · exact Node.Becomes.parent node _
    · exact Node.Becomes.refl node
  owned {id owner tag} hparent htag _ := by
    -- the new node did not exist, so it owned nothing
    obtain ⟨node, hnode, -⟩ := parent?_eq_some_iff.1 hparent
    obtain ⟨above, habove, -⟩ := tag?_eq_some_iff.1 htag
    have howner := lt_size_of_node? habove
    rw [parent?_add_of_notMem (Nat.ne_of_lt (lt_size_of_node? hnode)) fun hm => ?_]
    · exact hparent
    · rw [(admits.free id hm).parent?_eq hparent] at howner
      exact Nat.lt_irrefl _ howner

/-- So do all acts. -/
theorem act {allowed : Forest → Shape → Prop} (act : Act allowed f g) : f.Evolves g := by
  cases act with
  | keep ids => exact ⟨⟨ids, rfl⟩, fun h => ⟨_, h, Node.Becomes.refl _⟩, fun h _ _ => h⟩
  | add admits _ _ => exact Evolves.add admits _
  | @decorate changed old new here redecorated =>
      refine ⟨⟨[], by simp⟩, fun {id node} hnode => ?_, fun hparent _ _ => ?_⟩
      · by_cases heq : id = changed
        · subst heq
          obtain rfl := Option.some.inj (here.symm.trans hnode)
          exact ⟨new, node?_replace_self here, Node.Becomes.redecorated redecorated⟩
        · exact ⟨node, by rw [node?_replace_of_ne heq, hnode], Node.Becomes.refl node⟩
      · rw [parent?_replace here redecorated]
        exact hparent

/-- So does a document that owns other directives. -/
theorem exchange {directives : Segment} (here : f.node? root = some node)
    (document : node.shape.tag = .document)
    (accepts : f.Accepts root node (.document directives)) :
    f.Evolves (f.reshape root node (.document directives)) where
  lists := ⟨[], by simp⟩
  node {id old} hold := by
    obtain ⟨parent, hparent⟩ := exists_reshaped root (f.childrenOf node)
      (Shape.children f.lists (.document directives)) (.document directives) id old
    refine ⟨_, by rw [node?_reshape, hold, Option.map_some, hparent], ?_⟩
    by_cases hid : id = root
    · subst hid
      obtain rfl := Option.some.inj (here.symm.trans hold)
      simp only [if_true]
      exact Node.Becomes.document node parent directives document
    · simp only [if_neg hid]
      exact Node.Becomes.parent old parent
  owned {id owner tag} hparent htag hne := by
    -- an owner that is no document is not the root, and the root takes nothing from others
    have howner : owner ≠ root := by
      rintro rfl
      rw [tag?_of_node? here, document] at htag
      exact hne (Option.some.inj htag).symm
    obtain ⟨old, hold, hsame⟩ := parent?_eq_some_iff.1 hparent
    have hnotMem : id ∉ Shape.children f.lists (.document directives) := fun hm =>
      howner ((accepts.free id hm).parent?_eq hparent)
    have hreleased : released root (f.childrenOf node) id old = old := by
      refine if_neg fun h => howner (Option.some.inj ?_)
      rw [← hsame, h.2]
    rw [parent?, node?_reshape, hold, Option.map_some, Option.bind_some]
    unfold reshaped
    rw [hreleased, adopted_of_notMem hnotMem]
    split <;> exact hsame

/-- So does falling back to what was there. -/
theorem rollback (evolves : f.Evolves g) : f.Evolves (g.rollback f.mark) where
  lists := by
    obtain ⟨more, hmore⟩ := evolves.lists
    refine ⟨[], ?_⟩
    change g.lists.take f.lists.size = _
    rw [hmore, ← Array.toList_inj]
    simp
  node {id node} hnode := by
    obtain ⟨later, hlater, becomes⟩ := evolves.node hnode
    obtain ⟨parent, hparent, -⟩ :=
      exists_node?_rollback (m := f.mark) (lt_size_of_node? hnode) hlater
    exact ⟨_, hparent, becomes.trans (Node.Becomes.parent later parent)⟩
  owned {id owner tag} hparent htag hne := by
    obtain ⟨node, hnode, -⟩ := parent?_eq_some_iff.1 hparent
    obtain ⟨above, habove, -⟩ := tag?_eq_some_iff.1 htag
    obtain ⟨later, hlater, hsame⟩ := parent?_eq_some_iff.1 (evolves.owned hparent htag hne)
    obtain ⟨parent, hback, hcases⟩ :=
      exists_node?_rollback (m := f.mark) (lt_size_of_node? hnode) hlater
    rw [parent?_of_node? hback]
    rcases hcases with heq | ⟨-, other, hother, hle⟩
    · exact heq.trans hsame
    · -- the owner was there at the mark
      rw [hsame] at hother
      obtain rfl := Option.some.inj hother
      exact absurd (lt_size_of_node? habove) (Nat.not_lt.2 hle)

/-- Moves only let a forest evolve. -/
theorem moves (moves : f.Moves g) : f.Evolves g := by
  induction moves with
  | refl f => exact refl f
  | act _ act ih => exact ih.trans (Evolves.act act)
  | exchange _ here document accepts ih => exact ih.trans (exchange here document accepts)
  | rollback _ _ ih ih' => exact ih.trans ih'.rollback

end Evolves

/-- What holds of a forest as long as it evolves and no node is made, and when one is made, holds
along moves. -/
theorem Moves.preserves {P : Forest → Prop} (start : P f)
    (evolved : ∀ {f g : Forest}, P f → f.Evolves g → g.size ≤ f.size → P g)
    (added : ∀ {f : Forest} {shape : Shape} {span : Span} {donor : Option NodeId}, P f →
      f.Admits shape span →
      (∀ d, donor = some d → ∃ node, f.node? d = some node ∧ node.span = span) →
      P (f.add shape span donor))
    (moves : f.Moves g) : P g := by
  induction moves with
  | refl f => exact start
  | act _ act ih =>
      have hbefore := ih start
      have evolves := Evolves.act act
      cases act with
      | keep ids => exact evolved hbefore evolves (Nat.le_refl _)
      | add admits _ origin => exact added hbefore admits origin
      | decorate _ _ => exact evolved hbefore evolves (Nat.le_of_eq (size_replace _ _ _))
  | exchange _ here document accepts ih =>
      exact evolved (ih start) (Evolves.exchange here document accepts)
        (Nat.le_of_eq (size_reshape _ _ _ _))
  | rollback _ later ih _ =>
      refine evolved (ih start) (Evolves.moves later).rollback ?_
      rw [size_rollback]
      exact Nat.min_le_left _ _

namespace Evolves

/-! ### What stays -/

/-- Functions stay what they are, and names too. -/
theorem abides (evolves : f.Evolves g) : f.Abides g where
  size := evolves.size
  shape? {id shape} hshape lasting := by
    obtain ⟨node, hnode, rfl⟩ := shape?_eq_some_iff.1 hshape
    obtain ⟨later, hlater, becomes⟩ := evolves.node hnode
    rw [shape?_of_node? hlater, becomes.shape lasting]

theorem list_eq (evolves : f.Evolves g) (full : f.list s ≠ []) : g.list s = f.list s := by
  obtain ⟨more, hmore⟩ := evolves.lists
  rw [list, hmore]
  exact Segment.entries_append (Segment.inside_of_entries_ne_nil full) more

end Evolves

/-- **Whatever changes are made, a forest only evolves.** -/
theorem evolves_runAll (f : Forest) (changes : List Change) :
    f.Evolves (Change.runAll f changes) := Evolves.moves (moves_runAll f changes)

end Forest

end SyntaxForest
