/-
**Reading trees off a forest.**

The contents of a node say what form it has and which nodes are its parts, and a name is looked up
in the table.  Reading the parts in the same way gives a tree back.  As the parts of a node that a
builder made have smaller numbers, the number of the node bounds the depth.  A tree that is read
stays the same as long as its nodes keep their contents, places and parentheses.

Main definitions:

* `Forest.view` — the form and the parts that the contents of a node say;
* `Forest.readF`, `Forest.read` — the tree of a node;
* `Forest.Keeps` — a forest that has kept what is read of some nodes.

Main results:

* `Forest.view_flatten` — the parts are the children;
* `Forest.readF_succ_eq_some_iff` — a tree is read when its parts are;
* `Forest.Keeps.readF` — **what was read is read again.**
-/

import SyntaxForest.Proofs.Forest.Fitting
import SyntaxForest.Proofs.Syntax.Tree

set_option relaxedAutoImplicit false
set_option autoImplicit false

namespace SyntaxForest

namespace Forest

/-- The form and the parts, slot by slot, that the contents of a node say; none for a node that
is not in the source. -/
def view (f : Forest) (names : NameTable) : Shape → Option (Form × List (List NodeId))
  | .nameIdentifier name => some (.name (names.text name), [])
  | .typeReference name pointerDepth isArray =>
      some (.typeReference (names.text name) pointerDepth isArray, [])
  | .variableReference target => some (.variableReference, [target.entries])
  | .parameter name type default =>
      some (.parameter, [name.entries, type.entries, default.entries])
  | .function name returnType parameters body =>
      some (.function, [name.entries, returnType.entries, f.list parameters, body.entries])
  | .funDirective declared exported => some (.funDirective exported, [declared.entries])
  | .varDirective name type value exported =>
      some (.varDirective exported, [name.entries, type.entries, value.entries])
  | .constDirective name type value exported =>
      some (.constDirective exported, [name.entries, type.entries, value.entries])
  | .typeDirective name valueType exported =>
      some (.typeDirective exported, [name.entries, valueType.entries])
  | .typeBody => some (.typeBody, [])
  | .literal value => some (.literal value, [])
  | .call callee arguments isOperator =>
      some (.call isOperator, [callee.entries, f.list arguments])
  | .binary left operator right =>
      some (.binary (names.text operator), [left.entries, right.entries])
  | .unary operator operand => some (.unary (names.text operator), [operand.entries])
  | .complement operand => some (.complement, [operand.entries])
  | .negation operand => some (.negation, [operand.entries])
  | .conditionArm name condition body =>
      some (.conditionArm, [name.entries, condition.entries, body.entries])
  | .literalArm value body => some (.literalArm, [value.entries, body.entries])
  | .defaultArm body => some (.defaultArm, [body.entries])
  | .matching scrutinee arms _ => some (.matching, [scrutinee.entries, f.list arms])
  | .document _ => none
  | .specialized _ _ => none
  | .overloads _ _ => none

/-- The tree of a node of at most some depth. -/
def readF (f : Forest) (names : NameTable) : (fuel : Nat) → NodeId → Option Tree
  | 0, _ => none
  | fuel + 1, id =>
      match f.node? id with
      | none => none
      | some node =>
          match f.view names node.shape with
          | none => none
          | some (form, parts) =>
              (parts.mapM (List.mapM (readF f names fuel))).map fun slots =>
                .node form ⟨node.span, node.parenthesized⟩ slots

/-- **The tree of a node.** -/
def read (f : Forest) (names : NameTable) (id : NodeId) : Option Tree :=
  f.readF names (id.raw + 1) id

variable {f g : Forest} {names names' : NameTable} {id : NodeId} {shape : Shape} {form : Form}
  {parts : List (List NodeId)} {fuel : Nat} {t : Tree}

/-! ### Contents -/

theorem view_flatten (h : f.view names shape = some (form, parts)) :
    parts.flatten = shape.children f.lists := by
  cases shape <;> cases h <;> simp [Shape.children, list]

theorem view_congr (lists : g.lists = f.lists) : g.view names shape = f.view names shape := by
  cases shape <;> simp only [view, list, lists]

theorem view_tag (h : f.view names shape = some (form, parts)) : form.tag = shape.tag := by
  cases shape <;> cases h <;> rfl

/-- What fits goes on saying the same. -/
theorem Fitting.view_eq (fitting : f.Fitting names shape) {more : List NodeId}
    (lists : g.lists = f.lists ++ more) (ext : names.Extends names') :
    g.view names' shape = f.view names shape := by
  have htext : ∀ name ∈ shape.names, names'.text name = names.text name :=
    fun name hn => ext.text_eq (fitting.issued name hn)
  have hlist : ∀ s ∈ shape.segments, g.list s = f.list s := fun s hs => by
    rw [list, lists]
    exact Segment.entries_append (fitting.stored s hs) more
  cases shape <;>
    simp_all only [view, Shape.names, Shape.segments, List.mem_singleton, forall_eq]

/-! ### Trees -/

theorem mapM_eq_some_iff {α β : Type} {action : α → Option β} {listed : List α} {answers : List β} :
    listed.mapM action = some answers
      ↔ List.Forall₂ (fun a b => action a = some b) listed answers := by
  induction listed generalizing answers with
  | nil =>
      rw [List.mapM_nil, List.forall₂_nil_left_iff]
      exact ⟨fun h => (Option.some.inj h).symm, fun h => congrArg some h.symm⟩
  | cons a rest ih =>
      rw [List.mapM_cons, List.forall₂_cons_left_iff]
      constructor
      · intro h
        obtain ⟨b, hb, hrest⟩ := Option.bind_eq_some_iff.1 h
        obtain ⟨later, hlater, hdone⟩ := Option.bind_eq_some_iff.1 hrest
        exact ⟨b, later, hb, ih.1 hlater, (Option.some.inj hdone).symm⟩
      · rintro ⟨b, later, hb, hlater, rfl⟩
        rw [hb, ih.2 hlater]
        rfl

/-- A tree is read when its parts are. -/
theorem readF_succ_eq_some_iff : f.readF names (fuel + 1) id = some t ↔
    ∃ node form parts slots, f.node? id = some node
      ∧ f.view names node.shape = some (form, parts)
      ∧ List.Forall₂ (List.Forall₂ fun part tree => f.readF names fuel part = some tree) parts slots
      ∧ t = .node form ⟨node.span, node.parenthesized⟩ slots := by
  have hslots : ∀ {slot : List NodeId} {trees : List Tree},
      slot.mapM (f.readF names fuel) = some trees
        ↔ List.Forall₂ (fun part tree => f.readF names fuel part = some tree) slot trees :=
    mapM_eq_some_iff
  rw [readF]
  constructor
  · intro h
    split at h
    · cases h
    · next node hnode =>
        split at h
        · cases h
        · next form parts hview =>
            obtain ⟨slots, hparts, rfl⟩ := Option.map_eq_some_iff.1 h
            refine ⟨node, form, parts, slots, hnode, hview, ?_, rfl⟩
            exact (mapM_eq_some_iff.1 hparts).imp fun _ _ h => hslots.1 h
  · rintro ⟨node, form, parts, slots, hnode, hview, hparts, rfl⟩
    have hmapped := mapM_eq_some_iff.2 (hparts.imp fun _ _ h => hslots.2 h)
    simp only [hnode, hview, hmapped, Option.map_some]

/-- A tree that is read is read with more fuel. -/
theorem readF_mono {more : Nat} (le : fuel ≤ more) (h : f.readF names fuel id = some t) :
    f.readF names more id = some t := by
  induction fuel generalizing id t more with
  | zero => cases h
  | succ fuel ih =>
      obtain ⟨more, rfl⟩ : ∃ other, more = other + 1 := ⟨more - 1, by omega⟩
      obtain ⟨node, form, parts, slots, hnode, hview, hparts, rfl⟩ := readF_succ_eq_some_iff.1 h
      refine readF_succ_eq_some_iff.2 ⟨node, form, parts, slots, hnode, hview, ?_, rfl⟩
      exact hparts.imp fun _ _ hslot => hslot.imp fun _ _ hpart =>
        ih (Nat.le_of_succ_le_succ le) hpart

/-- A forest that has kept what is read of some nodes. -/
structure Keeps (f g : Forest) (S : NodeId → Prop) : Prop where
  /-- The nodes have their contents, their places and their parentheses. -/
  node : ∀ {id node}, S id → f.node? id = some node → ∃ later, g.node? id = some later
    ∧ later.shape = node.shape ∧ later.span = node.span
    ∧ later.parenthesized = node.parenthesized
  lists : ∃ more : List NodeId, g.lists = f.lists ++ more

namespace Keeps

variable {h : Forest} {S : NodeId → Prop}

theorem refl (f : Forest) (S : NodeId → Prop) : f.Keeps f S :=
  ⟨fun {_ node} _ hnode => ⟨node, hnode, rfl, rfl, rfl⟩, [], by simp⟩

theorem trans (first : f.Keeps g S) (second : g.Keeps h S) : f.Keeps h S where
  node {id node} hid hnode := by
    obtain ⟨later, hlater, hshape, hspan, hparenthesized⟩ := first.node hid hnode
    obtain ⟨last, hlast, hshape', hspan', hparenthesized'⟩ := second.node hid hlater
    exact ⟨last, hlast, hshape'.trans hshape, hspan'.trans hspan,
      hparenthesized'.trans hparenthesized⟩
  lists := by
    obtain ⟨more, hmore⟩ := first.lists
    obtain ⟨others, hothers⟩ := second.lists
    exact ⟨more ++ others, by rw [hothers, hmore, grown_grown]⟩

theorem keep (f : Forest) (ids : List NodeId) (S : NodeId → Prop) : f.Keeps (f.keep ids) S :=
  ⟨fun {_ node} _ hnode => ⟨node, hnode, rfl, rfl, rfl⟩, ids, rfl⟩

/-- Nodes that are adopted. -/
theorem of_adopted {owner : NodeId} {children : List NodeId}
    (nodes : ∀ {id node}, f.node? id = some node →
      g.node? id = some (adopted owner children id node))
    (lists : ∃ more : List NodeId, g.lists = f.lists ++ more) : f.Keeps g S where
  node {id node} _ hnode := by
    refine ⟨_, nodes hnode, ?_⟩
    unfold adopted
    split <;> exact ⟨rfl, rfl, rfl⟩
  lists := lists

/-- A node more. -/
theorem add (f : Forest) (shape : Shape) (span : Span) (donor : Option NodeId)
    (S : NodeId → Prop) : f.Keeps (f.add shape span donor) S := by
  have hnodes : ∀ {id node}, f.node? id = some node → (f.add shape span donor).node? id
      = some (adopted ⟨f.size⟩ (shape.children f.lists) id node) := fun {id node} hnode => by
    rw [node?_add_of_lt (lt_size_of_node? hnode), hnode, Option.map_some]
  exact of_adopted hnodes ⟨[], by simp⟩

/-- A node that is written to. -/
theorem replace {old new : Node} (here : f.node? id = some old)
    (same : S id → new.shape = old.shape ∧ new.span = old.span
      ∧ new.parenthesized = old.parenthesized) : f.Keeps (f.replace id new) S where
  node {other node} hother hnode := by
    by_cases heq : other = id
    · subst heq
      obtain rfl := Option.some.inj (here.symm.trans hnode)
      exact ⟨new, node?_replace_self here, same hother⟩
    · exact ⟨node, by rw [node?_replace_of_ne heq, hnode], rfl, rfl, rfl⟩
  lists := ⟨[], by simp⟩

end Keeps

/-- A node that is kept has the same children. -/
theorem Keeps.childList {S : NodeId → Prop} (keeps : f.Keeps g S)
    (stored : ∀ {id node}, f.node? id = some node → node.shape.Stored f.lists) (hid : S id)
    (h : id.raw < f.size) : g.childList id = f.childList id := by
  obtain ⟨node, hnode⟩ := node?_isSome_iff.2 h
  obtain ⟨later, hlater, hshape, -, -⟩ := keeps.node hid hnode
  obtain ⟨more, hmore⟩ := keeps.lists
  rw [childList_of_node? hnode, childList_of_node? hlater, childrenOf, hshape, hmore]
  exact Shape.children_append (stored hnode) more

/-- **What was read is read again** if it is read of nodes that are kept. -/
theorem Keeps.readF {S : NodeId → Prop} (keeps : f.Keeps g S) (fitted : f.Fitted names)
    (ext : names.Extends names')
    (closed : ∀ id, S id → ∀ child ∈ f.childList id, S child)
    (hid : S id) (h : f.readF names fuel id = some t) : g.readF names' fuel id = some t := by
  -- by induction on the fuel: the node says the same as before, and its parts are kept as well
  induction fuel generalizing id t with
  | zero => cases h
  | succ fuel ih =>
      obtain ⟨node, form, parts, slots, hnode, hview, hparts, rfl⟩ := readF_succ_eq_some_iff.1 h
      obtain ⟨later, hlater, hshape, hspan, hparenthesized⟩ := keeps.node hid hnode
      obtain ⟨more, hmore⟩ := keeps.lists
      refine readF_succ_eq_some_iff.2 ⟨later, form, parts, slots, hlater, ?_, ?_, ?_⟩
      · rw [hshape, (fitted.node hnode).view_eq hmore ext, hview]
      · have hchildren : ∀ slot ∈ parts, ∀ part ∈ slot, S part := by
          intro slot hs part hp
          refine closed id hid part ?_
          rw [childList_of_node? hnode, childrenOf, ← view_flatten hview]
          exact List.mem_flatten.2 ⟨slot, hs, hp⟩
        refine ((List.forall₂_and_left _ _).2 ⟨hchildren, hparts⟩).imp fun slot trees hslot => ?_
        refine ((List.forall₂_and_left _ _).2 hslot).imp fun part tree hpart => ?_
        exact ih hpart.1 hpart.2
      · rw [hspan, hparenthesized]

end Forest

end SyntaxForest
