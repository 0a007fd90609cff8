/-
**Building a tree and reading it back.**

A tree is built from the leaves up: a function is opened before its parts are built and closed when
it is made, and the parts are built in their order.  A builder that has room builds each tree of
the language.  The nodes of the tree are the next ones; those that were there stay as they were,
and none of the new nodes lists an old one.  Reading the number that is answered gives the tree
back.

Main definitions:

* `Tree.build` — the steps that build a tree;
* `Builder.HasRoom` — a builder that can go on for some nodes;
* `Builder.Appends` — a builder that has gone on without touching what was there;
* `Builder.Stands` — a tree that stands at a number and belongs to nobody;
* `Builder.Buildable` — a tree that each builder with room builds.

Main results:

* `Builder.Appends.trans`, `Builder.Stands.appends` — one tree after another;
* `Tree.WellFormed.buildable` — **a tree of the language is built and read back.**
-/

import SyntaxForest.Proofs.Builder.Making

set_option relaxedAutoImplicit false
set_option autoImplicit false

namespace SyntaxForest

open Forest Builder

/-! ### The steps of a tree -/

namespace Builder

/-- Opens a function if one will be made. -/
def openFor (form : Form) : Action Unit := if form = .function then beginFunction else pure ()

/-- The builder after that. -/
def opened (b : Builder) (form : Form) : Builder :=
  { b with frames := if form = .function then 0 :: b.frames else b.frames }

theorem openFor_eq (b : Builder) (form : Form) : openFor form b = .ok () (b.opened form) := by
  by_cases hform : form = .function
  · rw [openFor, opened, if_pos hform, if_pos hform]
    rfl
  · rw [openFor, opened, if_neg hform, if_neg hform]
    rfl

theorem length_frames_opened (b : Builder) (form : Form) :
    (b.opened form).frames.length = b.frames.length + (if form = .function then 1 else 0) := by
  by_cases hform : form = .function
  · rw [opened, if_pos hform, if_pos hform, List.length_cons]
  · rw [opened, if_neg hform, if_neg hform, Nat.add_zero]

end Builder

namespace Tree

mutual

/-- **Builds a tree,** its parts before itself. -/
def build : Tree → Builder.Action NodeId
  | node form place slots => do
      openFor form
      let parts ← buildSlots slots
      makeAt form parts place

def buildSlots : List (List Tree) → Builder.Action (List (List NodeId))
  | [] => pure []
  | slot :: rest => do
      let ids ← buildSlot slot
      let parts ← buildSlots rest
      return ids :: parts

def buildSlot : List Tree → Builder.Action (List NodeId)
  | [] => pure []
  | part :: rest => do
      let id ← build part
      let ids ← buildSlot rest
      return id :: ids

end

end Tree

namespace Builder

variable {b c d : Builder} {inside : Bool} {nodes more kept listed : Nat} {start : Nat}
  {id child : NodeId} {t : Tree} {form : Form} {place : Place} {parts : List (List NodeId)}
  {slots : List (List Tree)}

/-! ### Going on -/

/-- A builder that can go on for some nodes and some entries of the store. -/
structure HasRoom (b : Builder) (inside : Bool) (nodes kept : Nat) : Prop where
  sound : b.Sound
  opened : inside = true → b.frames ≠ []
  nodes : b.forest.size + nodes ≤ maxWord
  store : b.forest.lists.size + kept ≤ maxWord

/-- A builder that has gone on for some nodes and some entries of the store without touching what
was there. -/
structure Appends (b c : Builder) (nodes kept : Nat) : Prop where
  sound : c.Sound
  names : b.names.Extends c.names
  size : c.forest.size = b.forest.size + nodes
  node : ∀ {id}, id.raw < b.forest.size → c.forest.node? id = b.forest.node? id
  store : ∃ ids : List NodeId, ids.length = kept ∧ c.forest.lists = b.forest.lists ++ ids
  frames : c.frames.length = b.frames.length
  /-- The new nodes list none of those that were there. -/
  closed : ∀ {id child}, b.forest.size ≤ id.raw → child ∈ c.forest.childList id →
    b.forest.size ≤ child.raw

/-- A tree stands at a number that is not smaller than `start`, and belongs to nobody. -/
structure Stands (b : Builder) (start : Nat) (id : NodeId) (t : Tree) : Prop where
  start_le : start ≤ id.raw
  free : ∃ node, b.forest.node? id = some node ∧ node.parent = none
  read : b.forest.read b.names id = some t

theorem Sound.lt_of_mem (sound : b.Sound) (h : child ∈ b.forest.childList id) :
    child.raw < b.forest.size := by
  obtain ⟨node, hnode, -⟩ := sound.tree.node?_of_mem h
  exact lt_size_of_node? hnode

theorem Appends.refl (sound : b.Sound) : b.Appends b 0 0 where
  sound := sound
  names := NameTable.Extends.refl _
  size := rfl
  node _ := rfl
  store := ⟨[], rfl, by simp⟩
  frames := rfl
  closed {id child} hid hc := by
    rw [childList_of_le hid] at hc
    cases hc

theorem Appends.keeps (appends : b.Appends c nodes kept) :
    b.forest.Keeps c.forest fun _ => True where
  node {id node} _ h := by
    refine ⟨node, ?_, rfl, rfl, rfl⟩
    rw [appends.node (lt_size_of_node? h), h]
  lists := by
    obtain ⟨ids, -, hlists⟩ := appends.store
    exact ⟨ids, hlists⟩

/-- Going on twice is going on. -/
theorem Appends.trans (first : b.Appends c nodes kept) (second : c.Appends d more listed) :
    b.Appends d (nodes + more) (kept + listed) where
  sound := second.sound
  names := first.names.trans second.names
  size := by rw [second.size, first.size, Nat.add_assoc]
  node {id} h := by
    have hlater : id.raw < c.forest.size := by rw [first.size]; omega
    rw [second.node hlater, first.node h]
  store := by
    obtain ⟨ids, hids, hfirst⟩ := first.store
    obtain ⟨others, hothers, hsecond⟩ := second.store
    refine ⟨ids ++ others, by rw [List.length_append, hids, hothers], ?_⟩
    rw [hsecond, hfirst, grown_grown]
  frames := by rw [second.frames, first.frames]
  closed {id child} hid hc := by
    -- a node of the first part has the children that it had when the second part began
    by_cases hlt : id.raw < c.forest.size
    · rw [second.keeps.childList first.sound.tree.stored True.intro hlt] at hc
      exact first.closed hid hc
    · have hle := second.closed (Nat.le_of_not_lt hlt) hc
      rw [first.size] at hle
      omega

theorem HasRoom.first (room : b.HasRoom inside (nodes + more) (kept + listed)) :
    b.HasRoom inside nodes kept where
  sound := room.sound
  opened := room.opened
  nodes := by have := room.nodes; omega
  store := by have := room.store; omega

/-- After the first part of it there is room for the rest. -/
theorem HasRoom.rest (room : b.HasRoom inside (nodes + more) (kept + listed))
    (appends : b.Appends c nodes kept) : c.HasRoom inside more listed where
  sound := appends.sound
  opened hinside hframes := by
    have hlength := appends.frames
    rw [hframes, List.length_nil] at hlength
    exact room.opened hinside (List.length_eq_zero_iff.1 hlength.symm)
  nodes := by
    rw [appends.size, Nat.add_assoc]
    exact room.nodes
  store := by
    obtain ⟨ids, hids, hlists⟩ := appends.store
    rw [hlists, size_grown, hids, Nat.add_assoc]
    exact room.store

/-- There is room for the parts once the function is opened. -/
theorem HasRoom.inner (room : b.HasRoom inside (nodes + 1) (kept + listed)) (form : Form) :
    (b.opened form).HasRoom (inside || form = .function) nodes kept where
  sound := ⟨room.sound.tree, room.sound.fitted, room.sound.distinct⟩
  opened h hframes := by
    have hlength := length_frames_opened b form
    rw [hframes, List.length_nil] at hlength
    by_cases hform : form = .function
    · rw [if_pos hform] at hlength
      omega
    · rw [decide_eq_false hform, Bool.or_false] at h
      rw [if_neg hform] at hlength
      exact room.opened h (List.length_eq_zero_iff.1 hlength.symm)
  nodes := room.first.nodes
  store := room.first.store

/-! ### Standing trees -/

theorem Stands.lt_size (stands : b.Stands start id t) : id.raw < b.forest.size := by
  obtain ⟨node, hnode, -⟩ := stands.free
  exact lt_size_of_node? hnode

theorem Stands.tag (stands : b.Stands start id t) : b.forest.tag? id = some t.tag := by
  obtain ⟨node, form, parts, slots, hnode, hview, -, rfl⟩ := readF_succ_eq_some_iff.1 stands.read
  rw [tag?_of_node? hnode, ← view_tag hview]
  rfl

/-- A tree goes on standing. -/
theorem Stands.appends (stands : b.Stands start id t) (sound : b.Sound)
    (appends : b.Appends c nodes kept) : c.Stands start id t where
  start_le := stands.start_le
  free := by
    obtain ⟨node, hnode, hparent⟩ := stands.free
    exact ⟨node, by rw [appends.node stands.lt_size, hnode], hparent⟩
  read := appends.keeps.readF sound.fitted appends.names (fun _ _ _ _ => True.intro) True.intro
    stands.read

theorem Stands.mono {earlier : Nat} (stands : b.Stands start id t) (le : earlier ≤ start) :
    b.Stands earlier id t :=
  ⟨Nat.le_trans le stands.start_le, stands.free, stands.read⟩

/-! ### Slots -/

/-- A builder that has room builds the tree. -/
def Buildable (inside : Bool) (t : Tree) : Prop :=
  ∀ {b : Builder}, b.HasRoom inside t.size t.kept → ∃ id c, t.build b = .ok id c
    ∧ b.Appends c t.size t.kept ∧ c.Stands b.forest.size id t

/-- What holds of each pair of two lists holds of each entry of the first. -/
theorem forall_of_forall₂ {α β : Type} {R : α → β → Prop} {p : α → Prop} {first : List α}
    {second : List β} (all : List.Forall₂ R first second) (h : ∀ {a b}, R a b → p a) :
    ∀ a ∈ first, p a := by
  induction all with
  | nil => exact fun a ha => (nomatch ha)
  | cons hhead _ ih =>
      intro a ha
      rcases List.mem_cons.1 ha with rfl | ha
      · exact h hhead
      · exact ih a ha

theorem bounds_of_stands {ids : List NodeId} {slot : List Tree}
    (stands : List.Forall₂ (b.Stands start) ids slot) :
    ∀ id ∈ ids, start ≤ id.raw ∧ id.raw < b.forest.size :=
  forall_of_forall₂ stands fun stands => ⟨stands.start_le, stands.lt_size⟩

/-- The trees in a slot are built. -/
theorem exists_buildSlot {slot : List Tree} (buildable : ∀ part ∈ slot, Buildable inside part)
    (room : b.HasRoom inside (Tree.sizeSlot slot) (Tree.keptSlot slot)) :
    ∃ ids c, Tree.buildSlot slot b = .ok ids c
      ∧ b.Appends c (Tree.sizeSlot slot) (Tree.keptSlot slot)
      ∧ List.Forall₂ (c.Stands b.forest.size) ids slot ∧ ids.Nodup := by
  induction slot generalizing b with
  | nil => exact ⟨[], b, rfl, Appends.refl room.sound, .nil, .nil⟩
  | cons part rest ih =>
      obtain ⟨id, c, hpart, first, hid⟩ := buildable part List.mem_cons_self room.first
      obtain ⟨ids, d, hrest, second, hids, hnodup⟩ :=
        ih (fun other ho => buildable other (List.mem_cons_of_mem _ ho)) (room.rest first)
      have hle : b.forest.size ≤ c.forest.size := by
        rw [first.size]
        exact Nat.le_add_right _ _
      refine ⟨id :: ids, d, ?_, first.trans second, ?_, ?_⟩
      · rw [Tree.buildSlot, Step.bind_of_ok hpart, Step.bind_of_ok hrest]
        rfl
      · exact .cons (hid.appends first.sound second) (hids.imp fun _ _ stands => stands.mono hle)
      · -- the later trees have larger numbers
        refine List.nodup_cons.2 ⟨fun hmem => ?_, hnodup⟩
        exact absurd hid.lt_size (Nat.not_lt.2 (bounds_of_stands hids id hmem).1)

theorem bounds_of_stands_flatten
    (stands : List.Forall₂ (List.Forall₂ (b.Stands start)) parts slots) :
    ∀ id ∈ parts.flatten, start ≤ id.raw ∧ id.raw < b.forest.size := by
  intro id hid
  obtain ⟨ids, hids, hmem⟩ := List.mem_flatten.1 hid
  exact forall_of_forall₂ stands bounds_of_stands ids hids id hmem

/-- The trees in some slots are built. -/
theorem exists_buildSlots (buildable : ∀ slot ∈ slots, ∀ part ∈ slot, Buildable inside part)
    (room : b.HasRoom inside (Tree.sizeSlots slots) (Tree.keptSlots slots)) :
    ∃ parts c, Tree.buildSlots slots b = .ok parts c
      ∧ b.Appends c (Tree.sizeSlots slots) (Tree.keptSlots slots)
      ∧ List.Forall₂ (List.Forall₂ (c.Stands b.forest.size)) parts slots
      ∧ parts.flatten.Nodup := by
  induction slots generalizing b with
  | nil => exact ⟨[], b, rfl, Appends.refl room.sound, .nil, .nil⟩
  | cons slot rest ih =>
      obtain ⟨ids, c, hslot, first, hids, hnodup⟩ :=
        exists_buildSlot (buildable slot List.mem_cons_self) room.first
      obtain ⟨parts, d, hrest, second, hparts, hflat⟩ :=
        ih (fun other ho => buildable other (List.mem_cons_of_mem _ ho)) (room.rest first)
      have hle : b.forest.size ≤ c.forest.size := by
        rw [first.size]
        exact Nat.le_add_right _ _
      refine ⟨ids :: parts, d, ?_, first.trans second, ?_, ?_⟩
      · rw [Tree.buildSlots, Step.bind_of_ok hslot, Step.bind_of_ok hrest]
        rfl
      · refine .cons (hids.imp fun _ _ stands => stands.appends first.sound second) ?_
        exact hparts.imp fun _ _ hslot => hslot.imp fun _ _ stands => stands.mono hle
      · rw [List.flatten_cons]
        refine List.nodup_append.2 ⟨hnodup, hflat, fun id hid other ho heq => ?_⟩
        -- the trees of the later slots have larger numbers
        have hlt := (bounds_of_stands hids id hid).2
        rw [heq] at hlt
        exact absurd hlt (Nat.not_lt.2 (bounds_of_stands_flatten hparts other ho).1)

/-! ### The node over them -/

theorem length_sequence {α β : Type} {R : List α → List β → Prop} (form : Form)
    {first : List (List α)} {second : List (List β)} (all : List.Forall₂ R first second)
    (h : ∀ {ids trees}, R ids trees → ids.length = trees.length) :
    (form.sequence first).length = (form.sequence second).length := by
  have hslot : ∀ slot, (first.getD slot []).length = (second.getD slot []).length := by
    intro slot
    induction all generalizing slot with
    | nil => rfl
    | cons hhead _ ih =>
        cases slot with
        | zero => exact h hhead
        | succ slot => exact ih slot
  cases form with
  | function => exact hslot 2
  | call isOperator => exact hslot 1
  | matching => exact hslot 1
  | _ => rfl

/-- Trees that stand in the slots of a form are what the slots hold. -/
theorem holds_of_stands (stands : List.Forall₂ (List.Forall₂ (b.Stands start)) parts slots)
    {expected : List Slot}
    (takes : List.Forall₂ Slot.Takes expected (slots.map (·.map Tree.tag))) :
    List.Forall₂ (Slot.Holds b.forest) expected parts := by
  induction stands generalizing expected with
  | nil =>
      rw [List.map_nil, List.forall₂_nil_right_iff] at takes
      rw [takes]
      exact .nil
  | cons hhead _ ih =>
      rw [List.map_cons] at takes
      obtain ⟨slot, rest, htakes, hrest, rfl⟩ := List.forall₂_cons_right_iff.1 takes
      refine .cons (Slot.holds_of_takes ?_ htakes) (ih hrest)
      exact List.forall₂_map_right_iff.2 (hhead.imp fun _ _ stands => stands.tag)

/-- Over trees that stand in its slots the node can be made. -/
theorem ready_of_stands
    (room : b.HasRoom inside (nodes + 1) (kept + (form.sequence slots).length))
    (appends : (b.opened form).Appends c nodes kept)
    (stands : List.Forall₂ (List.Forall₂ (c.Stands start)) parts slots)
    (nodup : parts.flatten.Nodup)
    (takes : List.Forall₂ Slot.Takes form.slots (slots.map (·.map Tree.tag)))
    (enclosed : form = .matching → inside = true) : c.Ready form parts where
  holds := holds_of_stands stands takes
  nodup := nodup
  free part hp := by
    obtain ⟨slot, hs, hmem⟩ := List.mem_flatten.1 hp
    exact forall_of_forall₂ stands
      (fun hslot => forall_of_forall₂ hslot fun hpart => hpart.free) slot hs part hmem
  room := by
    have hnodes := room.nodes
    have hsize : c.forest.size = b.forest.size + nodes := appends.size
    omega
  store := by
    have hstore := room.store
    obtain ⟨ids, hids, hlists⟩ := appends.store
    have hgrown : c.forest.lists.size = b.forest.lists.size + kept := by
      rw [hlists, size_grown, hids]
      rfl
    rw [length_sequence form stands fun hslot => hslot.length_eq]
    omega
  opened hform hframes := by
    have hlength := appends.frames
    rw [hframes, List.length_nil, length_frames_opened] at hlength
    rcases hform with hform | hform
    · rw [if_pos hform] at hlength
      omega
    · have hnone : b.frames = [] := List.length_eq_zero_iff.1 (by omega)
      exact room.opened (enclosed hform) hnone

/-- Making the node over new trees does not touch what was there. -/
theorem Appends.makes (appends : (b.opened form).Appends c nodes kept)
    (makes : c.forest.Makes d.forest d.names form parts place) (reaches : c.Reaches d)
    (frames : d.frames.length + (if form = .function then 1 else 0) = c.frames.length)
    (after : ∀ part ∈ parts.flatten, b.forest.size ≤ part.raw) :
    b.Appends d (nodes + 1) (kept + (form.sequence parts).length) where
  sound := appends.sound.reaches reaches
  names := appends.names.trans reaches.names
  size := by
    rw [makes.size, appends.size]
    rfl
  node {id} hid := by
    -- only the parts are given an owner, and they are new
    have hlater : c.forest.node? id = b.forest.node? id := appends.node hid
    obtain ⟨node, hnode⟩ := node?_isSome_iff.2 hid
    rw [makes.other (hlater.trans hnode), hnode, adopted_of_notMem]
    exact fun hmem => absurd hid (Nat.not_lt.2 (after id hmem))
  store := by
    obtain ⟨ids, hids, hlists⟩ := appends.store
    refine ⟨ids ++ form.sequence parts, by rw [List.length_append, hids], ?_⟩
    rw [makes.lists, hlists, grown_grown]
    rfl
  frames := by
    have hbefore := appends.frames
    rw [length_frames_opened] at hbefore
    omega
  closed {id child} hid hc := by
    rcases Nat.lt_trichotomy id.raw c.forest.size with hlt | heq | hgt
    · rw [makes.keeps.childList appends.sound.tree.stored True.intro hlt] at hc
      exact appends.closed hid hc
    · obtain ⟨node, hnode, hview, -, -⟩ := makes.made
      obtain rfl : id = ⟨c.forest.size⟩ := NodeId.eq_of_raw heq
      rw [childList_of_node? hnode, childrenOf, ← view_flatten hview] at hc
      exact after child hc
    · rw [childList_of_le (by rw [makes.size]; exact hgt)] at hc
      cases hc

/-- The tree stands at its new node. -/
theorem stands_of_makes (sound : c.Sound) (reaches : c.Reaches d)
    (stands : List.Forall₂ (List.Forall₂ (c.Stands start)) parts slots)
    (makes : c.forest.Makes d.forest d.names form parts place) (le : start ≤ c.forest.size) :
    d.Stands start ⟨c.forest.size⟩ (.node form place slots) := by
  obtain ⟨node, hnode, hview, rfl, hparent⟩ := makes.made
  refine ⟨le, ⟨node, hnode, hparent⟩, ?_⟩
  refine readF_succ_eq_some_iff.2 ⟨node, form, parts, slots, hnode, hview, ?_, rfl⟩
  refine stands.imp fun _ _ hslot => hslot.imp fun part tree hpart => ?_
  -- the parts were read before the node was made, and with less fuel
  have hread := makes.keeps.readF sound.fitted reaches.names (fun _ _ _ _ => True.intro)
    True.intro hpart.read
  exact readF_mono hpart.lt_size hread

end Builder

/-! ### Trees of the language -/

/-- **A tree of the language is built and read back.** -/
theorem Tree.WellFormed.buildable {inside : Bool} {t : Tree} (wellFormed : t.WellFormed inside) :
    Buildable inside t := by
  induction wellFormed with
  | @node inside form place slots takes enclosed _ ih =>
      intro b room
      rw [size, kept] at room ⊢
      have hstart : (b.opened form).HasRoom (inside || form = .function) (sizeSlots slots)
          (keptSlots slots) := room.inner form
      obtain ⟨parts, c, hbuilt, appends, stands, hnodup⟩ := exists_buildSlots ih hstart
      have hsequence := length_sequence form stands fun hslot => hslot.length_eq
      have ready := ready_of_stands room appends stands hnodup takes enclosed
      obtain ⟨d, hmade, makes, hclosed⟩ := ready.completes_makeAt place
      have reaches : c.Reaches d := by
        have hreaches := (proceeds_makeAt c form parts place).reaches
        rw [hmade] at hreaches
        exact hreaches
      have hle : b.forest.size ≤ c.forest.size := by
        rw [appends.size]
        exact Nat.le_add_right _ _
      refine ⟨⟨c.forest.size⟩, d, ?_, ?_, stands_of_makes appends.sound reaches stands makes hle⟩
      · rw [build, Step.bind_of_ok (openFor_eq b form), Step.bind_of_ok hbuilt]
        exact hmade
      · rw [← hsequence]
        exact appends.makes makes reaches hclosed fun part hp =>
          (bounds_of_stands_flatten stands part hp).1

end SyntaxForest
