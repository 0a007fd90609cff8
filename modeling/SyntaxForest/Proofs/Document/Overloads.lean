/-
**Grouping the declarations of a document.**

The declarations of functions at the top level of a document are labelled by the texts of the names
that they declare.  Grouping them is never refused as long as there is room.  The first of several
declarations of one text is replaced by a new group, which has all of them as its members, the
others are left out, and everything else keeps its place.  After that no text is declared twice,
and there is nothing more to do.

Main definitions:

* `Document.declaredText?` — the text of the name that a declaration declares;
* `Document.topLevel`, `Document.leaders`, `Document.standIn` — the directives of a document, the
  first ones of those that share a text, and the groups that stand in for them;
* `Document.HasRoom` — room for the groups, their members and the directives that are left.

Main results:

* `Forest.Treelike.regroup_led` — what comes of regrouping directives whose groups can be made;
* `Document.Sound.groupOverloads_of_leaders_eq_nil` — without a text declared twice there is
  nothing to do;
* `Document.groupOverloads_eq_gathered` — **grouping computes the stable regrouping.**
-/

import SyntaxForest.Proofs.Document.Built
import SyntaxForest.Proofs.Forest.Leading

set_option relaxedAutoImplicit false
set_option autoImplicit false

namespace SyntaxForest

namespace Forest

open Sharing

variable {f g : Forest} {id root : NodeId} {former : Segment} {names : NameTable}
  {members : Name → List NodeId} {listed : List NodeId} {name : Name}

/-! ### Regrouping -/

section Regroup

variable {κ : Type} [DecidableEq κ] {label : NodeId → Option κ} {title : NodeId → Name}

/-- Directives whose groups can be made are regrouped: the groups are made, the list of what is
left is kept, and the document owns it. -/
theorem Treelike.exists_regroup (tree : f.Treelike) (document : f.directivesOf root = .ok former)
    (groupable : Groupable (f.disown root) label title members listed) :
    ∃ kept more segment node,
      Grouped (f.disown root) (ledGroups label title listed listed) more kept
      ∧ kept.node? root = some node ∧ node.shape = .document Segment.empty
      ∧ kept.list segment = gathered label listed (standIn label listed f.size)
      ∧ Forest.regroup root listed members f
        = .ok ((leaders label listed).map (standIn label listed f.size))
            (kept.reshape root node (.document segment)) := by
  obtain ⟨old, hold, -⟩ := directivesOf_eq_ok_iff.1 document
  have start : Grouped (f.disown root) (ledGroups label title listed [])
      (ledMembers label listed []) (f.disown root) := Grouped.start (tree.disown root)
  obtain ⟨between, heach, grouped⟩ := groupable.regroupEach start rfl
  -- what is left is kept
  have hshort : (gathered label listed (standIn label listed f.size)).length ≤ maxListLength :=
    Nat.le_trans length_gathered_le groupable.short
  have hroom : between.lists.size < maxWord := by
    rw [grouped.lists, size_grown]
    exact groupable.store
  obtain ⟨segment, hstored⟩ := exists_storeList between "directives" hshort fun _ => hroom
  obtain ⟨-, -, -, hlist⟩ := storeList_kept hstored
  have hkept := grouped.keep (gathered label listed (standIn label listed f.size))
  -- and the document, which owns nothing, owns it
  have hempty : (f.disown root).shape? root = some (.document Segment.empty) := by
    rw [shape?, node?_disown, hold, Option.map_some, Option.map_some, orphaned, if_pos rfl]
  obtain ⟨node, hnode, hshape⟩ := shape?_eq_some_iff.1 (hkept.grows.shape? hempty)
  have hgathered : (between.keep (gathered label listed (standIn label listed f.size))).list segment
      = gathered label listed (standIn label listed (f.disown root).size) := by
    rw [size_disown]
    exact hlist
  have hchildless : Forest.childrenOf _ node = [] :=
    (childList_of_node? hnode).symm.trans (hkept.childless (lt_size_of_node? hold))
  have hreplaced := replaceShape_eq_ok_iff.2 ⟨node, hnode, groupable.accepts hkept hgathered,
    fun child hc => absurd hc (hchildless ▸ List.not_mem_nil), rfl⟩
  refine ⟨_, _, segment, node, hkept, hnode, hshape, hlist, ?_⟩
  rw [tree.regroup_eq document, Step.bind_of_ok heach, size_disown, Fate.directives_map,
    Fate.groups_map, Step.bind_of_ok (toAttempt_eq_ok_iff.2 hstored), Step.bind_of_ok hreplaced]
  rfl

/-- **What comes of regrouping directives whose groups can be made.** -/
theorem Treelike.regroup_led (tree : f.Treelike) (document : f.directivesOf root = .ok former)
    (groupable : Groupable (f.disown root) label title members listed) :
    ∃ g, Forest.regroup root listed members f
        = .ok ((leaders label listed).map (standIn label listed f.size)) g
      ∧ (∃ segment, g.directivesOf root = .ok segment
          ∧ g.list segment = gathered label listed (standIn label listed f.size))
      ∧ g.size = f.size + (leaders label listed).length
      ∧ f.Retains g
      ∧ ∀ x ∈ leaders label listed, ∃ segment,
          g.shape? (standIn label listed f.size x) = some (.overloads (title x) segment)
            ∧ g.list segment = sharing label listed x
            ∧ g.donor? (standIn label listed f.size x) = some x := by
  obtain ⟨kept, more, segment, node, grouped, hnode, hshape, hlist, run⟩ :=
    tree.exists_regroup document groupable
  have hroot : root.raw < f.size := by
    obtain ⟨old, hold, -⟩ := directivesOf_eq_ok_iff.1 document
    exact lt_size_of_node? hold
  have htag : node.shape.tag = .document := by
    rw [hshape]
    rfl
  refine ⟨_, run, ⟨segment, ?_, hlist⟩, ?_, ?_, fun x hx => ?_⟩
  · obtain ⟨later, hlater, hlast⟩ := exists_node?_reshape hnode
    exact directivesOf_eq_ok_iff.2 ⟨later, hlater, hlast.trans (if_pos rfl)⟩
  · rw [size_reshape, grouped.size, size_disown, ledGroups, List.length_map, leaders]
  · exact ((retains_disown document).trans grouped.grows.retains).trans (retains_reshape hnode htag)
  · obtain ⟨donor, members, hgroup, hmembers⟩ := grouped.led hx
    rw [size_disown] at hgroup
    have hne : standIn label listed f.size x ≠ root := by
      rintro rfl
      exact absurd hroot (Nat.not_lt.2 (Nat.le_add_right _ _))
    refine ⟨members, ?_, hmembers, ?_⟩
    · rw [shape?_reshape_of_ne hne]
      exact shape?_of_node? hgroup
    · rw [donor?_reshape, donor?, hgroup]
      rfl

end Regroup

/-! ### Declared names -/

/-- The name that a declaration of a function declares; none for anything else. -/
def declaredName? (f : Forest) (id : NodeId) : Option Name := (f.declaredName id).toOption

theorem declaredName?_eq_some_iff :
    f.declaredName? id = some name ↔ f.declaredName id = .ok name := by
  unfold declaredName?
  cases f.declaredName id with
  | error refusal => exact ⟨fun h => (nomatch h), fun h => (nomatch h)⟩
  | ok found =>
      constructor
      · intro h
        cases h
        rfl
      · intro h
        cases h
        rfl

/-- In a fitted forest exactly the declarations of functions declare a name. -/
theorem Fitted.declaredName?_isSome_iff (fitted : f.Fitted names) :
    (f.declaredName? id).isSome ↔ f.tag? id = some .funDirective := by
  rw [Option.isSome_iff_exists]
  constructor
  · rintro ⟨name, hname⟩
    obtain ⟨node, declared, exported, hnode, hshape⟩ :=
      funDirective_of_declaredName (declaredName?_eq_some_iff.1 hname)
    rw [tag?_of_node? hnode, hshape]
    rfl
  · intro htag
    obtain ⟨name, declares, -⟩ := fitted.declares htag
    exact ⟨name, declaredName?_eq_some_iff.2 declares.declaredName⟩

/-- The names that fitting directives declare are found. -/
theorem Fitted.declaredNames_eq (fitted : f.Fitted names)
    (directives : f.HoldsAll Tag.isDirective listed) :
    f.declaredNames listed
      = .ok (listed.filterMap fun x => (f.declaredName? x).map fun name => (name, x)) := by
  induction listed with
  | nil => rfl
  | cons x rest ih =>
      obtain ⟨tag, htag, -⟩ := directives x List.mem_cons_self
      have hrest := ih fun slot hs => directives slot (List.mem_cons_of_mem _ hs)
      rw [declaredNames, htag]
      dsimp only
      by_cases hfun : tag = .funDirective
      · subst hfun
        obtain ⟨name, declares, -⟩ := fitted.declares htag
        have hname := declares.declaredName
        rw [if_pos rfl, hname, hrest, List.filterMap_cons, declaredName?_eq_some_iff.2 hname]
        rfl
      · have hnone : f.declaredName? x = none := by
          refine Option.not_isSome_iff_eq_none.1 fun h => hfun ?_
          rw [fitted.declaredName?_isSome_iff, htag] at h
          exact Option.some.inj h
        rw [if_neg hfun, hrest, List.filterMap_cons, hnone]
        rfl

/-- The members of the group of a name declare it. -/
theorem membersOf_filterMap (named : NodeId → Option Name) (listed : List NodeId) (name : Name) :
    membersOf (listed.filterMap fun x => (named x).map fun name => (name, x)) name
      = listed.filter fun x => named x = some name := by
  induction listed with
  | nil => rfl
  | cons x rest ih =>
      rw [List.filterMap_cons]
      cases hx : named x with
      | none =>
          rw [List.filter_cons_of_neg (by simp [hx])]
          exact ih
      | some other =>
          rw [Option.map_some]
          by_cases heq : other = name
          · rw [List.filter_cons_of_pos (by simp [hx, heq]), ← ih, membersOf,
              List.filter_cons_of_pos (by simp [heq])]
            rfl
          · rw [List.filter_cons_of_neg (by simp [hx, heq]), ← ih, membersOf,
              List.filter_cons_of_neg (by simp [heq])]
            rfl

/-- A name that is declared was given out. -/
theorem Fitted.issued_of_declaredName? (fitted : f.Fitted names)
    (h : f.declaredName? id = some name) : names.Issued name := by
  have htag := fitted.declaredName?_isSome_iff.1 (by rw [h]; rfl)
  obtain ⟨found, declares, issued⟩ := fitted.declares htag
  rw [declaredName?_eq_some_iff, declares.declaredName] at h
  cases h
  exact issued

/-- A fitted forest that has kept contents has kept the names that directives declare. -/
theorem Retains.declaredName?_eq (retains : f.Retains g) (fitted : f.Fitted names)
    (later : g.Fitted names) (directive : f.Holds Tag.isDirective id) :
    g.declaredName? id = f.declaredName? id := by
  obtain ⟨tag, htag, hdirective⟩ := directive
  by_cases hfun : tag = .funDirective
  · -- a declaration of a function is retained with its name, and others have none
    subst hfun
    obtain ⟨name, declares, -⟩ := fitted.declares htag
    rw [declaredName?_eq_some_iff.2 declares.declaredName,
      declaredName?_eq_some_iff.2 (retains.declares declares).declaredName]
  · obtain ⟨node, hnode, rfl⟩ := tag?_eq_some_iff.1 htag
    have hdocument : node.shape.tag ≠ .document := by
      intro h
      rw [h] at hdirective
      cases hdirective
    obtain ⟨last, hlast, hshape⟩ :=
      shape?_eq_some_iff.1 (retains id node.shape (shape?_of_node? hnode) hdocument)
    have hnone : f.declaredName? id = none := by
      refine Option.not_isSome_iff_eq_none.1 fun h => hfun ?_
      rw [fitted.declaredName?_isSome_iff, htag] at h
      exact Option.some.inj h
    have hnone' : g.declaredName? id = none := by
      refine Option.not_isSome_iff_eq_none.1 fun h => hfun ?_
      rw [later.declaredName?_isSome_iff, tag?_of_node? hlast, hshape] at h
      exact Option.some.inj h
    rw [hnone, hnone']

end Forest

namespace Document

open Sharing Forest

/-- The text of the name that a declaration of a function declares; none for anything else. -/
def declaredText? (d : Document) (id : NodeId) : Option String :=
  (d.forest.declaredName? id).map d.names.text

/-- The directives at the top level. -/
def topLevel (d : Document) : List NodeId := d.directives?.getD []

/-- The first ones of the declarations of functions that share a text. -/
def leaders (d : Document) : List NodeId := Sharing.leaders d.declaredText? d.topLevel

/-- The declarations of functions with the text of one of them. -/
def overloadsOf (d : Document) (x : NodeId) : List NodeId :=
  sharing d.declaredText? d.topLevel x

/-- The new node that stands in for a leader; there is one for each, in order. -/
def standIn (d : Document) (x : NodeId) : NodeId := ⟨d.forest.size + d.leaders.idxOf x⟩

/-- There is room for the groups, and if there are any, for their members and for what is left. -/
structure HasRoom (d : Document) : Prop where
  nodes : d.forest.size + d.leaders.length ≤ maxWord
  /-- There is room for their members, and then for the directives that are left. -/
  store : d.leaders ≠ [] →
    d.forest.lists.size + (d.leaders.flatMap d.overloadsOf).length < maxWord

/-- The names that the directives declare. -/
def declared (d : Document) : List (Name × NodeId) :=
  d.topLevel.filterMap fun x => (d.forest.declaredName? x).map fun name => (name, x)

variable {d e : Document} {x y : NodeId} {name : Name}

/-! ### Texts and names -/

theorem declaredText?_of_name (h : d.forest.declaredName? x = some name) :
    d.declaredText? x = some (d.names.text name) := by
  rw [declaredText?, h, Option.map_some]

theorem declaredText?_eq_none_iff : d.declaredText? x = none ↔ d.forest.declaredName? x = none :=
  Option.map_eq_none_iff

namespace Sound

theorem directives (sound : d.Sound) : ∃ former, d.forest.directivesOf d.root = .ok former
    ∧ d.directives? = some d.topLevel ∧ d.topLevel = d.forest.list former := by
  obtain ⟨former, document⟩ := sound.document
  obtain ⟨node, hnode, hshape⟩ := directivesOf_eq_ok_iff.1 document
  have hsome : d.directives? = some (d.forest.list former) := by
    rw [directives?, hnode, Option.map_some, hshape]
  refine ⟨former, document, ?_, ?_⟩
  · rw [topLevel, hsome, Option.getD_some]
  · rw [topLevel, hsome, Option.getD_some]

/-- The directives at the top level are directives. -/
theorem holdsAll (sound : d.Sound) : d.forest.HoldsAll Tag.isDirective d.topLevel := by
  obtain ⟨former, document, -, htop⟩ := sound.directives
  obtain ⟨node, hnode, hshape⟩ := directivesOf_eq_ok_iff.1 document
  have hfits := (sound.fitted.node hnode).fits
  rw [hshape] at hfits
  rw [htop]
  exact hfits

theorem declaredText?_isSome_iff (sound : d.Sound) :
    (d.declaredText? x).isSome ↔ d.forest.tag? x = some .funDirective := by
  rw [declaredText?, Option.isSome_map]
  exact sound.fitted.declaredName?_isSome_iff

/-- Texts are the same exactly when names are. -/
theorem declaredText?_eq_iff (sound : d.Sound) (hx : d.forest.declaredName? x = some name) :
    d.declaredText? y = d.declaredText? x ↔ d.forest.declaredName? y = some name := by
  rw [declaredText?_of_name hx]
  constructor
  · intro h
    obtain ⟨other, hother, htext⟩ := Option.map_eq_some_iff.1 h
    have hissued := sound.fitted.issued_of_declaredName? hx
    have hissued' := sound.fitted.issued_of_declaredName? hother
    rw [hother, sound.distinct.text_injective hissued' hissued htext]
  · exact fun h => declaredText?_of_name h

theorem declaredNames (sound : d.Sound) : d.forest.declaredNames d.topLevel = .ok d.declared :=
  sound.fitted.declaredNames_eq sound.holdsAll

theorem membersOf_declared (sound : d.Sound) (hx : d.forest.declaredName? x = some name) :
    membersOf d.declared name = d.overloadsOf x := by
  rw [declared, membersOf_filterMap, overloadsOf, sharing]
  exact List.filter_congr fun y _ => decide_eq_decide.2 (sound.declaredText?_eq_iff hx).symm

/-- Groups are needed exactly when there is a leader. -/
theorem groupsNeeded_eq_false_iff (sound : d.Sound) :
    groupsNeeded d.declared = false ↔ d.leaders = [] := by
  rw [Forest.groupsNeeded_eq_false_iff, leaders, leaders_eq_nil_iff]
  constructor
  · intro h x hx
    refine Bool.eq_false_iff.2 fun hshared => ?_
    obtain ⟨hlabel, first, second, rest, hsharing⟩ := shared_iff.1 hshared
    cases hname : d.forest.declaredName? x with
    | none => exact hlabel (declaredText?_eq_none_iff.2 hname)
    | some name =>
        have hlt := h (name, x) (List.mem_filterMap.2 ⟨x, hx, by rw [hname]; rfl⟩)
        rw [sound.membersOf_declared hname, overloadsOf, hsharing, List.length_cons,
          List.length_cons] at hlt
        omega
  · intro h entry he
    obtain ⟨x, hx, hentry⟩ := List.mem_filterMap.1 he
    obtain ⟨name, hname, rfl⟩ := Option.map_eq_some_iff.1 hentry
    have hunshared := h x hx
    rw [shared, declaredText?_of_name hname, Option.isSome_some, Bool.true_and,
      decide_eq_false_iff_not] at hunshared
    rw [sound.membersOf_declared hname, overloadsOf]
    omega

/-- Grouping regroups the forest if there is a leader. -/
theorem regroupDocument_eq (sound : d.Sound) {former : Segment}
    (document : d.forest.directivesOf d.root = .ok former)
    (htop : d.topLevel = d.forest.list former) :
    Forest.regroupDocument d.root d.forest = if d.leaders = [] then .ok [] d.forest
      else regroupOrRestore d.root former (membersOf d.declared) d.forest := by
  rw [Forest.regroupDocument_eq document (htop ▸ sound.declaredNames)]
  by_cases hleaders : d.leaders = []
  · rw [if_pos hleaders, sound.groupsNeeded_eq_false_iff.2 hleaders]
    rfl
  · have hneeded : groupsNeeded d.declared = true := by
      exact Bool.of_not_eq_false fun h => hleaders (sound.groupsNeeded_eq_false_iff.1 h)
    rw [if_neg hleaders, hneeded, if_pos rfl]

theorem groupOverloads_of_leaders_eq_nil (sound : d.Sound) (h : d.leaders = []) :
    groupOverloads d = .ok [] d := by
  obtain ⟨former, document, -, htop⟩ := sound.directives
  rw [sound.tree.groupOverloads_eq, sound.regroupDocument_eq document htop, if_pos h]

/-- The groups of a document with room can be made. -/
theorem groupable (sound : d.Sound) (room : d.HasRoom) (h : d.leaders ≠ []) :
    Groupable (d.forest.disown d.root) d.declaredText?
      (fun x => (d.forest.declaredName? x).getD Name.empty) (membersOf d.declared) d.topLevel := by
  obtain ⟨former, document, -, htop⟩ := sound.directives
  have hchildren : d.forest.childList d.root = d.topLevel := by
    rw [htop, childList_of_directivesOf document]
  obtain ⟨node, hnode, hshape⟩ := directivesOf_eq_ok_iff.1 document
  have retains := retains_disown document
  -- a directive with a text has a name
  have hnamed : ∀ x, d.declaredText? x ≠ none → ∃ name, d.forest.declaredName? x = some name :=
    fun x hx => Option.ne_none_iff_exists'.1 fun hnone => hx (declaredText?_eq_none_iff.2 hnone)
  refine ⟨?_, ?_, fun x hx => ?_, fun x hx hnone htag => ?_, fun x _ hx => ?_,
    fun x _ y _ hx hy => ?_, fun x _ hx => ?_, ?_, ?_⟩
  · rw [← hchildren]
    exact sound.tree.nodup d.root
  · have hshort := (sound.fitted.node hnode).short
    rw [hshape] at hshort
    rw [htop]
    exact Nat.le_trans (Segment.length_entries_le_length _ _) (hshort _ List.mem_cons_self)
  · obtain ⟨child, hchild, hparent⟩ := sound.tree.node?_of_mem (hchildren ▸ hx)
    refine ⟨_, by rw [node?_disown, hchild, Option.map_some], ?_⟩
    rw [orphaned, if_pos hparent]
  · -- the sort of a directive is what it was
    obtain ⟨tag, hsort, -⟩ := sound.holdsAll x hx
    have hkept := (sound.fitted.disown document).1.tag? hsort
    rw [htag] at hkept
    cases hkept
    have hsome := sound.declaredText?_isSome_iff.2 hsort
    rw [hnone] at hsome
    cases hsome
  · obtain ⟨name, hname⟩ := hnamed x hx
    have htag := sound.fitted.declaredName?_isSome_iff.1 (by rw [hname]; rfl)
    obtain ⟨found, declares, -⟩ := sound.fitted.declares htag
    rw [hname, Option.getD_some]
    rw [declaredName?_eq_some_iff, declares.declaredName] at hname
    cases hname
    exact retains.declares declares
  · obtain ⟨name, hname⟩ := hnamed x hx
    rw [hname, (sound.declaredText?_eq_iff hname).1 hy]
  · obtain ⟨name, hname⟩ := hnamed x hx
    rw [hname, Option.getD_some, sound.membersOf_declared hname]
    rfl
  · rw [size_disown]
    exact room.nodes
  · rw [lists_disown]
    exact room.store h

/-- **Grouping computes the stable regrouping** where there are leaders. -/
theorem groupOverloads_of_leaders (sound : d.Sound) (room : d.HasRoom) (h : d.leaders ≠ []) :
    ∃ g, groupOverloads d = .ok (d.leaders.map d.standIn) { d with forest := g }
      ∧ (∃ segment, g.directivesOf d.root = .ok segment
          ∧ g.list segment = gathered d.declaredText? d.topLevel d.standIn)
      ∧ g.size = d.forest.size + d.leaders.length
      ∧ d.forest.Retains g
      ∧ ∀ x ∈ d.leaders, ∃ name segment, g.shape? (d.standIn x) = some (.overloads name segment)
          ∧ d.declaredText? x = some (d.names.text name)
          ∧ g.list segment = d.overloadsOf x
          ∧ g.donor? (d.standIn x) = some x := by
  obtain ⟨former, document, -, htop⟩ := sound.directives
  obtain ⟨g, run, hlist, hsize, retains, hmade⟩ :=
    sound.tree.regroup_led document (sound.groupable room h)
  refine ⟨g, ?_, hlist, hsize, retains, fun x hx => ?_⟩
  · rw [sound.tree.groupOverloads_eq, sound.regroupDocument_eq document htop, if_neg h]
    unfold regroupOrRestore
    rw [← htop, run]
    rfl
  · obtain ⟨segment, hshape, hmembers, hdonor⟩ := hmade x hx
    refine ⟨_, segment, hshape, ?_, hmembers, hdonor⟩
    obtain ⟨hlabel, -⟩ := leads_iff.1 (List.mem_filter.1 hx).2
    obtain ⟨name, hname⟩ := Option.ne_none_iff_exists'.1 fun hnone =>
      hlabel (declaredText?_eq_none_iff.2 hnone)
    rw [declaredText?_of_name hname, hname, Option.getD_some]

end Sound

/-- **Grouping computes the stable regrouping.**  In a document that was built and has room, the
declarations of functions have texts.  Grouping succeeds and answers the new groups in order.  Each
first one of several declarations of a text is replaced by a new group, the others are left out,
and all other directives keep their places.  A group has the text of its declarations, lists them
in order and is derived from the first; nothing else is made, and no other contents change.  No
text is declared twice at the top level any more, and grouping again does nothing. -/
theorem groupOverloads_eq_gathered (built : d.Built) (room : d.HasRoom) :
    d.directives? = some d.topLevel
      ∧ (∀ x, (d.declaredText? x).isSome ↔ d.forest.tag? x = some .funDirective)
      ∧ ∃ e, groupOverloads d = .ok (d.leaders.map d.standIn) e
        ∧ e.directives? = some (gathered d.declaredText? d.topLevel d.standIn)
        ∧ (∀ x ∈ d.leaders, ∃ name segment,
          e.forest.shape? (d.standIn x) = some (.overloads name segment)
            ∧ d.declaredText? x = some (e.names.text name)
            ∧ e.forest.list segment = d.overloadsOf x
            ∧ e.forest.donor? (d.standIn x) = some x)
        ∧ e.forest.size = d.forest.size + d.leaders.length
        ∧ d.forest.Retains e.forest
        ∧ (e.topLevel.filterMap e.declaredText?).Nodup
        ∧ groupOverloads e = .ok [] e := by
  have sound := built.sound
  obtain ⟨former, document, hdirectives, htop⟩ := sound.directives
  have hnodup : d.topLevel.Nodup := by
    rw [htop, ← childList_of_directivesOf document]
    exact sound.tree.nodup d.root
  refine ⟨hdirectives, fun x => sound.declaredText?_isSome_iff, ?_⟩
  -- if no text is shared nothing happens, and that is what happens the second time
  by_cases hleaders : d.leaders = []
  · have hnone := sound.groupOverloads_of_leaders_eq_nil hleaders
    have hsame : gathered d.declaredText? d.topLevel d.standIn = d.topLevel :=
      gathered_of_leaders_eq_nil hleaders
    refine ⟨d, by rw [hleaders]; exact hnone, by rw [hsame]; exact hdirectives, fun x hx => ?_,
      by rw [hleaders]; rfl, fun _ _ hshape _ => hshape,
      (leaders_eq_nil_iff_nodup hnodup).1 hleaders, hnone⟩
    rw [hleaders] at hx
    cases hx
  · obtain ⟨g, run, ⟨segment, hroot, hlist⟩, hsize, retains, hmade⟩ :=
      sound.groupOverloads_of_leaders room hleaders
    have hbuilt : Built { d with forest := g } := by
      have hlast := built.groupOverloads
      rw [run] at hlast
      exact hlast
    have later := hbuilt.sound
    obtain ⟨latter, document', hdirectives', htop'⟩ := later.directives
    have hlast : Document.topLevel { d with forest := g }
        = gathered d.declaredText? d.topLevel d.standIn := by
      have hsame : g.directivesOf d.root = .ok latter := document'
      rw [hroot] at hsame
      cases hsame
      rw [htop', ← hlist]
    -- the directives that are left have the texts that they had, and the groups have none
    have hkept : ∀ x ∈ d.topLevel,
        Document.declaredText? { d with forest := g } x = d.declaredText? x := fun x hx =>
      congrArg (·.map d.names.text)
        (retains.declaredName?_eq sound.fitted later.fitted (sound.holdsAll x hx))
    have hgroups : ∀ x ∈ d.leaders,
        Document.declaredText? { d with forest := g } (d.standIn x) = none := fun x hx => by
      obtain ⟨name, members, hshape, -⟩ := hmade x hx
      obtain ⟨node, hnode, htag⟩ := shape?_eq_some_iff.1 hshape
      refine Option.not_isSome_iff_eq_none.1 fun h => ?_
      have hfun := later.declaredText?_isSome_iff.1 h
      have hgroup : g.tag? (d.standIn x) = some .overloads := by
        rw [tag?_of_node? hnode, htag]
        rfl
      rw [hgroup] at hfun
      cases hfun
    have hlabels : ((Document.topLevel { d with forest := g }).filterMap
        (Document.declaredText? { d with forest := g })).Nodup := by
      rw [hlast]
      exact nodup_labels hnodup hkept hgroups
    have hagain : (Document.topLevel { d with forest := g }).Nodup := by
      rw [htop', ← childList_of_directivesOf document']
      exact later.tree.nodup _
    exact ⟨_, run, hlast ▸ hdirectives', hmade, hsize, retains, hlabels,
      later.groupOverloads_of_leaders_eq_nil ((leaders_eq_nil_iff_nodup hagain).2 hlabels)⟩

/-- Two declarations of functions of one name, and the declaration of a variable between them. -/
def interleaved : Builder :=
  Builder.runAll (Builder.start NameTable.fresh "" none)
    [ .name "f" ⟨0, 1⟩, .beginFunction, .function ⟨0⟩ none [] none ⟨0, 1⟩,
      .funDirective ⟨1⟩ false ⟨0, 1⟩,
      .name "v" ⟨1, 2⟩, .varDirective ⟨3⟩ none none false ⟨1, 2⟩,
      .name "f" ⟨2, 3⟩, .beginFunction, .function ⟨5⟩ none [] none ⟨2, 3⟩,
      .funDirective ⟨6⟩ false ⟨2, 3⟩ ]

/-- The document over them. -/
def interleavedDocument : Document := (interleaved.finish [⟨2⟩, ⟨4⟩, ⟨7⟩]).toOption.getD default

/-- The group takes the place of the first declaration, before the variable. -/
theorem groupOverloads_interleaved :
    interleavedDocument.Built ∧ interleavedDocument.HasRoom
      ∧ ∃ e, groupOverloads interleavedDocument = .ok [⟨9⟩] e
        ∧ e.directives? = some [⟨9⟩, ⟨4⟩]
        ∧ groupOverloads e = .ok [] e := by
  have reached : interleaved.Reached := (Builder.Reached.start .fresh "" none).runAll _
  have built : interleavedDocument.Built :=
    Built.finish reached (show interleaved.finish [⟨2⟩, ⟨4⟩, ⟨7⟩] = .ok interleavedDocument by rfl)
  have room : interleavedDocument.HasRoom := ⟨by decide +kernel, fun _ => by decide +kernel⟩
  have hgroups : interleavedDocument.leaders.map interleavedDocument.standIn = [⟨9⟩] := by
    decide +kernel
  have hleft : gathered interleavedDocument.declaredText? interleavedDocument.topLevel
      interleavedDocument.standIn = [⟨9⟩, ⟨4⟩] := by
    decide +kernel
  obtain ⟨-, -, e, run, hdirectives, -, -, -, -, hagain⟩ :=
    groupOverloads_eq_gathered built room
  rw [hgroups] at run
  rw [hleft] at hdirectives
  exact ⟨built, room, e, run, hdirectives, hagain⟩

end Document

end SyntaxForest
