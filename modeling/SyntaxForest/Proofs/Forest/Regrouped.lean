/-
**Groups between a document and its directives.**

A document that was regrouped has groups among its children, and some of its former directives are
children of those.  Nothing else is different: all other nodes have the owners and the children that
they had, and nothing but its owner has changed in a node.  So on the way upwards from a node come
the owners that it had, now and then with a group between, and the tree under the document has the
nodes that it had, and the groups.

Main definitions:

* `Forest.Regrouped` — a forest in which groups stand between a document and its directives.

Main results:

* `Forest.Treelike.regrouped` — **regrouping puts groups between**;
* `Forest.Regrouped.lineage` — the owners of a node are those that it had, and groups;
* `Forest.Regrouped.walk_perm`, `Forest.Regrouped.outside_eq` — **the tree has the nodes that it
  had, and the same nodes are outside**;
* `Forest.Regrouped.enclosingFunction_eq` — **the function around a node is the same.**
-/

import SyntaxForest.Proofs.Forest.Fates
import SyntaxForest.Proofs.Forest.Walks
import Mathlib.Data.List.Find

set_option relaxedAutoImplicit false
set_option autoImplicit false

namespace SyntaxForest

namespace Forest

/-- Groups stand between a document and some of its directives; everything else is the same. -/
structure Regrouped (root : NodeId) (f g : Forest) : Prop where
  document : f.tag? root = some .document
  size : f.size ≤ g.size
  /-- Of a former node only the owner may change, and of the document the directives. -/
  node : ∀ {id node}, f.node? id = some node → ∃ parent shape,
    g.node? id = some { node with parent := parent, shape := shape }
      ∧ shape.tag = node.shape.tag ∧ (id ≠ root → shape = node.shape)
  childList : ∀ {id}, id.raw < f.size → id ≠ root → g.childList id = f.childList id
  /-- A former node has its owner, or a new one in the place of the document. -/
  owner : ∀ {id}, id.raw < f.size →
    (g.parent? id).map (fun owner => if owner.raw < f.size then owner else root) = f.parent? id
  /-- A new node is a group that the document owns, without errors. -/
  group : ∀ {id node}, g.node? id = some node → f.size ≤ id.raw →
    node.parent = some root ∧ node.errors = [] ∧ node.shape.tag = .overloads

variable {f g : Forest} {id n root : NodeId} {node : Node} {former : Segment}
  {groups owners : List NodeId} {declared : List (Name × NodeId)}

/-! ### Regrouping -/

/-- Nodes have the children that they had when their forest has grown. -/
theorem Grows.childList (grows : f.Grows g) (tree : f.Treelike) (known : id.raw < f.size) :
    g.childList id = f.childList id := by
  obtain ⟨node, hnode⟩ := node?_isSome_iff.2 known
  obtain ⟨parent, hparent, -⟩ := grows.node hnode
  obtain ⟨more, hmore⟩ := grows.lists
  rw [childList_of_node? hnode, childList_of_node? hparent, childrenOf, hmore]
  exact Shape.children_append (tree.stored hnode) more

theorem Fate.mem_directives_of_mem_groups {fates : List Fate} (h : id ∈ Fate.groups fates) :
    id ∈ Fate.directives fates := by
  obtain ⟨fate, hfate, hid⟩ := List.mem_filterMap.1 h
  refine List.mem_filterMap.2 ⟨fate, hfate, ?_⟩
  cases fate with
  | grouped group => exact hid
  | kept directive => cases hid
  | merged => cases hid

/-- A forest of trees in which nothing was to be done. -/
theorem Treelike.regrouped_self (tree : f.Treelike) (document : f.directivesOf root = .ok former) :
    f.Regrouped root f where
  document := by
    obtain ⟨node, hnode, hshape⟩ := directivesOf_eq_ok_iff.1 document
    rw [tag?_of_node? hnode, hshape]
    rfl
  size := Nat.le_refl _
  node hnode := ⟨_, _, hnode, rfl, fun _ => rfl⟩
  childList _ _ := rfl
  owner {id} _ := by
    cases hparent : f.parent? id with
    | none => rfl
    | some owner => rw [Option.map_some, if_pos (tree.lt_size_of_parent? hparent)]
  group hnode hnew := absurd (lt_size_of_node? hnode) (Nat.not_lt.2 hnew)

/-- What has become of the directives of a document before it owns what is left of them: each is
left at the top or is a member of a group, and the groups are at the top. -/
structure Sorted (root : NodeId) (f between : Forest) (new : List Group) (more top : List NodeId) :
    Prop where
  /-- The groups were made while the document owned nothing. -/
  grouped : Grouped (f.disown root) new more between
  drawn : ∀ group ∈ new, ∀ member ∈ group.members, f.parent? member = some root
  left : ∀ y ∈ top, f.parent? y = some root ∨ f.size ≤ y.raw
  /-- No directive is lost. -/
  covered : ∀ x, f.parent? x = some root → x ∈ top ∨ ∃ group ∈ new, x ∈ group.members
  groups : ∀ {id : NodeId}, f.size ≤ id.raw → id.raw < between.size → id ∈ top

namespace Sorted

variable {between : Forest} {new : List Group} {more top : List NodeId} {shape : Shape}

/-- A former node has its owner, or a group if that was the document. -/
theorem owner (sorted : Sorted root f between new more top) (tree : f.Treelike)
    (known : root.raw < f.size) (here : between.node? root = some node)
    (accepts : between.Accepts root node shape) (owned : shape.children between.lists = top)
    (hid : id.raw < f.size) :
    ((between.reshape root node shape).parent? id).map
      (fun owner => if owner.raw < f.size then owner else root) = f.parent? id := by
  have grouped := sorted.grouped
  have hsize : (f.disown root).size = f.size := size_disown f root
  have childless := grouped.childless known
  have hparent : (between.reshape root node shape).parent? id
      = if id ∈ top then some root else between.parent? id := by
    rw [parent?_reshape here childless accepts, owned]
  rw [hparent]
  cases hformer : f.parent? id with
  | none =>
      have hdisowned : (f.disown root).parent? id = none := by
        rw [parent?_disown, hformer]
        rfl
      have htop : id ∉ top := by
        intro hm
        rcases sorted.left id hm with h | h
        · rw [hformer] at h
          cases h
        · exact absurd hid (Nat.not_lt.2 h)
      have hnone : between.parent? id = none := by
        refine Option.eq_none_iff_forall_ne_some.2 fun owner howner => ?_
        by_cases hold : owner.raw < (f.disown root).size
        · have := grouped.parent?_of_lt howner hold
          rw [hdisowned] at this
          cases this
        · obtain ⟨place, group, -, hgroup, hmem⟩ :=
            grouped.group_of_parent? howner (Nat.not_lt.1 hold)
          have := sorted.drawn group (List.mem_of_getElem? hgroup) id hmem
          rw [hformer] at this
          cases this
      rw [if_neg htop, hnone, Option.map_none]
  | some owner =>
      by_cases howner : owner = root
      · subst howner
        split
        · rw [Option.map_some, if_pos known]
        · next htop =>
            -- a directive that is not at the top is a member of a group
            obtain ⟨group, hgroup, hmem⟩ := (sorted.covered id hformer).resolve_left htop
            obtain ⟨place, hplace⟩ := List.mem_iff_getElem?.1 hgroup
            have hbetween : between.parent? id = some ⟨(f.disown owner).size + place⟩ := by
              rw [← grouped.tree.linked, grouped.childList hplace]
              exact hmem
            have hnew : ¬ (f.disown owner).size + place < f.size := by omega
            rw [hbetween, Option.map_some, if_neg hnew]
      · have hdisowned : (f.disown root).parent? id = some owner := by
          rw [parent?_disown, hformer, if_neg fun h => howner (Option.some.inj h)]
        have hbetween : between.parent? id = some owner := by
          obtain ⟨old, hold, hsame⟩ := parent?_eq_some_iff.1 hdisowned
          obtain ⟨parent, hlater, hcases⟩ := grouped.grows.node hold
          rw [parent?_of_node? hlater]
          rcases hcases with heq | ⟨hnone, -⟩
          · exact heq.trans hsame
          · rw [hsame] at hnone
            cases hnone
        have htop : id ∉ top := by
          rw [← owned]
          intro hm
          obtain ⟨old, hold, hfree⟩ := accepts.free id hm
          rw [← parent?_of_node? hold, hbetween] at hfree
          rcases hfree with h | h
          · cases h
          · exact howner (Option.some.inj h)
        rw [if_neg htop, hbetween, Option.map_some, if_pos (tree.lt_size_of_parent? hformer)]

/-- Once the document owns what is at the top, groups stand between it and its directives. -/
theorem regrouped (sorted : Sorted root f between new more top) (tree : f.Treelike)
    (document : f.directivesOf root = .ok former) {segment : Segment}
    (here : between.node? root = some node)
    (accepts : between.Accepts root node (.document segment)) (owned : between.list segment = top) :
    f.Regrouped root (between.reshape root node (.document segment)) := by
  have grouped := sorted.grouped
  obtain ⟨hdocument, -, -, -, -, -⟩ := tree.regrouped_self document
  have known : root.raw < f.size := by
    obtain ⟨old, hold, -⟩ := tag?_eq_some_iff.1 hdocument
    exact lt_size_of_node? hold
  refine ⟨hdocument, ?_, fun {id old} hold => ?_, fun {id} hid hne => ?_,
    sorted.owner tree known here accepts owned, fun {id later} hlater hnew => ?_⟩
  · rw [size_reshape]
    exact Nat.le_trans (Nat.le_of_eq (size_disown f root).symm) grouped.grows.size
  · -- a former node is given up, perhaps put under a group, and perhaps owned again
    have hdisowned : (f.disown root).node? id = some (orphaned root id old) := by
      rw [node?_disown, hold, Option.map_some]
    obtain ⟨parent, hbetween, -⟩ := grouped.grows.node hdisowned
    obtain ⟨parent', hreshaped⟩ := exists_reshaped root (between.childrenOf node)
      (Shape.children between.lists (.document segment)) (.document segment) id
      { orphaned root id old with parent := parent }
    refine ⟨parent', _, by rw [node?_reshape, hbetween, Option.map_some, hreshaped]; rfl, ?_, ?_⟩
    · split
      · next hroot =>
          rw [hroot] at hold
          rw [tag?_of_node? hold] at hdocument
          exact (Option.some.inj hdocument).symm
      · next hne => simp only [orphaned, if_neg hne]
    · intro hne
      rw [if_neg hne]
      simp only [orphaned, if_neg hne]
  · rw [childList_reshape_of_ne hne, grouped.grows.childList (tree.disown root) (by
      rw [size_disown]; exact hid), childList_disown_of_ne hne]
  · -- a new node is a group, and all groups are at the top
    have hne : id ≠ root := by
      rintro rfl
      exact absurd known (Nat.not_lt.2 hnew)
    have hlt := lt_size_of_node? hlater
    rw [size_reshape] at hlt
    have hparent := parent?_reshape here (grouped.childless known) accepts id
    have htop : id ∈ Shape.children between.lists (.document segment) := by
      change id ∈ between.list segment
      rw [owned]
      exact sorted.groups hnew hlt
    rw [parent?_of_node? hlater, if_pos htop] at hparent
    rw [node?_reshape] at hlater
    obtain ⟨old, hold, hreshaped⟩ := Option.map_eq_some_iff.1 hlater
    obtain ⟨name, part, donor, first, rfl⟩ := grouped.group_of_node? hold
      (by rw [size_disown]; exact hnew)
    obtain ⟨parent, heq⟩ := exists_reshaped root (between.childrenOf node)
      (Shape.children between.lists (.document segment)) (.document segment) id
      (Node.fresh (.overloads name part) donor first)
    rw [heq, if_neg hne] at hreshaped
    subst hreshaped
    exact ⟨hparent, rfl, rfl⟩

end Sorted

/-- **Regrouping puts groups between a document and its directives,** and answers the groups. -/
theorem Treelike.regrouped (tree : f.Treelike) (document : f.directivesOf root = .ok former)
    (hdeclared : f.declaredNames (f.list former) = .ok declared)
    (run : Forest.regroup root (f.list former) (membersOf declared) f = .ok groups g) :
    f.Regrouped root g ∧ groups = (List.range' f.size (g.size - f.size)).map NodeId.mk := by
  obtain ⟨fates, segment, passed, node, hfates, rfl, -, -, hlist, hnode, accepts, rfl⟩ :=
    regroup_parts tree document run
  obtain ⟨new, more, hpassed, drawn, hgroups, hleft, hsettled⟩ :=
    regroupEach_settled (Grouped.start (tree.disown root)) hfates
  have grouped := hpassed.keep (Fate.directives fates)
  rw [List.nil_append] at grouped
  rw [size_disown, List.length_nil, Nat.add_zero] at hgroups
  -- as many groups as new nodes
  have hsize := grouped.size
  rw [size_disown] at hsize
  have hmem : ∀ {id : NodeId},
      id ∈ Fate.groups fates ↔ f.size ≤ id.raw ∧ id.raw < f.size + new.length := by
    intro id
    rw [hgroups, List.mem_map]
    constructor
    · rintro ⟨place, hplace, rfl⟩
      exact List.mem_range'_1.1 hplace
    · intro h
      exact ⟨id.raw, List.mem_range'_1.2 h, rfl⟩
  have hlisted : ∀ x, f.parent? x = some root ↔ x ∈ f.list former := fun x => by
    rw [← tree.linked, childList_of_directivesOf document]
  have sorted : Sorted root f (passed.keep (Fate.directives fates)) new
      (more ++ Fate.directives fates) (Fate.directives fates) := by
    refine ⟨grouped, fun group hg member hm => ?_, fun y hy => ?_, fun x hx => ?_,
      fun {id} hle hlt => ?_⟩
    · rw [hlisted]
      rw [drawn group hg] at hm
      exact mem_of_mem_membersOf hdeclared _ member hm
    · rw [hlisted]
      exact (hleft y hy).imp_right fun h => (hmem.1 h).1
    · exact Settled.covered hsettled drawn hdeclared (abides_disown document)
        (tag?_disown document) ((hlisted x).1 hx)
    · exact Fate.mem_directives_of_mem_groups (hmem.2 ⟨hle, by rw [← hsize]; exact hlt⟩)
  refine ⟨sorted.regrouped tree document hnode accepts hlist, ?_⟩
  rw [hgroups, size_reshape, hsize, Nat.add_sub_cancel_left]

/-! ### What is the same -/

namespace Regrouped

theorem tag?_eq (regrouped : f.Regrouped root g) (known : id.raw < f.size) :
    g.tag? id = f.tag? id := by
  obtain ⟨node, hnode⟩ := node?_isSome_iff.2 known
  obtain ⟨parent, shape, hlater, htag, -⟩ := regrouped.node hnode
  rw [tag?_of_node? hlater, tag?_of_node? hnode, htag]

theorem lt_size (regrouped : f.Regrouped root g) : root.raw < f.size := by
  obtain ⟨node, hnode, -⟩ := tag?_eq_some_iff.1 regrouped.document
  exact lt_size_of_node? hnode

theorem parent?_of_le (regrouped : f.Regrouped root g) (hnew : f.size ≤ id.raw)
    (hlt : id.raw < g.size) : g.parent? id = some root := by
  obtain ⟨node, hnode⟩ := node?_isSome_iff.2 hlt
  rw [parent?_of_node? hnode]
  exact (regrouped.group hnode hnew).1

/-- **On the way upwards from a node come the owners that it had, and groups.** -/
theorem lineage (regrouped : f.Regrouped root g) (later : g.Treelike) (known : n.raw < f.size)
    (h : f.IsLineage n owners) : ∃ above, g.IsLineage n above
      ∧ (∀ owner ∈ above, owner.raw < g.size) ∧ above.filter (·.raw < f.size) = owners := by
  induction owners generalizing n with
  | nil =>
      have howner := regrouped.owner known
      rw [IsLineage] at h
      rw [h, Option.map_eq_none_iff] at howner
      exact ⟨[], howner, List.forall_mem_nil _, rfl⟩
  | cons owner rest ih =>
      have howner := regrouped.owner known
      rw [h.1, Option.map_eq_some_iff] at howner
      obtain ⟨parent, hparent, hsame⟩ := howner
      have hlt := later.lt_size_of_parent? hparent
      by_cases hold : parent.raw < f.size
      · rw [if_pos hold] at hsame
        subst hsame
        obtain ⟨above, habove, hbelow, hfilter⟩ := ih hold h.2
        refine ⟨parent :: above, ⟨hparent, habove⟩, List.forall_mem_cons.2 ⟨hlt, hbelow⟩, ?_⟩
        rw [List.filter_cons_of_pos (by simpa using hold), hfilter]
      · -- a group comes between the node and the document
        rw [if_neg hold] at hsame
        subst hsame
        obtain ⟨above, habove, hbelow, hfilter⟩ := ih regrouped.lt_size h.2
        have hgroup := regrouped.parent?_of_le (Nat.not_lt.1 hold) hlt
        refine ⟨parent :: root :: above, ⟨hparent, hgroup, habove⟩,
          List.forall_mem_cons.2 ⟨hlt, List.forall_mem_cons.2
            ⟨Nat.lt_of_lt_of_le regrouped.lt_size regrouped.size, hbelow⟩⟩, ?_⟩
        rw [List.filter_cons_of_neg (by simpa using hold),
          List.filter_cons_of_pos (by simpa using regrouped.lt_size), hfilter]

/-- A former node is in the tree exactly when it was. -/
theorem mem_walk_iff (regrouped : f.Regrouped root g) (tree : f.Treelike) (later : g.Treelike)
    (known : n.raw < f.size) : n ∈ g.walk root ↔ n ∈ f.walk root := by
  have hroot := regrouped.lt_size
  obtain ⟨owners, howners⟩ := tree.exists_lineage n
  obtain ⟨above, habove, -, hfilter⟩ := regrouped.lineage later known howners
  rw [later.mem_walk_iff (Nat.lt_of_lt_of_le hroot regrouped.size), tree.mem_walk_iff hroot,
    later.under_iff_lineage, tree.under_iff_lineage]
  have hmem : root ∈ above ↔ root ∈ owners := by
    rw [← hfilter, List.mem_filter, decide_eq_true_eq]
    exact ⟨fun h => ⟨h, hroot⟩, fun h => h.1⟩
  refine or_congr_right ⟨?_, ?_⟩
  · rintro ⟨others, hothers, hm⟩
    exact ⟨owners, howners, hmem.1 (hothers.unique habove ▸ hm)⟩
  · rintro ⟨others, hothers, hm⟩
    exact ⟨above, habove, hmem.2 (hothers.unique howners ▸ hm)⟩

/-- **The tree has the nodes that it had, and groups.** -/
theorem walk_perm (regrouped : f.Regrouped root g) (tree : f.Treelike) (later : g.Treelike) :
    ((g.walk root).filter (·.raw < f.size)).Perm (f.walk root) := by
  refine (List.perm_ext_iff_of_nodup ((later.nodup_walk root).filter _)
    (tree.nodup_walk root)).2 fun n => ?_
  rw [List.mem_filter, decide_eq_true_eq]
  constructor
  · rintro ⟨hm, hlt⟩
    exact (regrouped.mem_walk_iff tree later hlt).1 hm
  · intro hm
    have hlt := tree.lt_size_of_mem_walk regrouped.lt_size hm
    exact ⟨(regrouped.mem_walk_iff tree later hlt).2 hm, hlt⟩

theorem mem_walk_of_le (regrouped : f.Regrouped root g) (later : g.Treelike)
    (hnew : f.size ≤ id.raw) (hlt : id.raw < g.size) : id ∈ g.walk root := by
  rw [later.mem_walk_iff (Nat.lt_of_lt_of_le regrouped.lt_size regrouped.size)]
  exact Relation.ReflTransGen.single (regrouped.parent?_of_le hnew hlt)

/-- **The same nodes as before are outside the tree,** in the same order. -/
theorem outside_eq (regrouped : f.Regrouped root g) (tree : f.Treelike) (later : g.Treelike) :
    g.ids.filter (· ∉ g.walk root) = f.ids.filter (· ∉ f.walk root) := by
  obtain ⟨extra, hextra⟩ := Nat.exists_eq_add_of_le regrouped.size
  have hids : g.ids = f.ids ++ (List.range extra).map fun place => ⟨f.size + place⟩ := by
    rw [ids, ids, hextra, List.range_add, List.map_append, List.map_map]
    rfl
  have hnew : ((List.range extra).map fun place => (⟨f.size + place⟩ : NodeId)).filter
      (· ∉ g.walk root) = [] := by
    refine List.filter_eq_nil_iff.2 fun id hid => ?_
    obtain ⟨place, hplace, rfl⟩ := List.mem_map.1 hid
    have hlt := List.mem_range.1 hplace
    have hm : (⟨f.size + place⟩ : NodeId) ∈ g.walk root :=
      regrouped.mem_walk_of_le later (Nat.le_add_right _ _)
        (by rw [hextra]; exact Nat.add_lt_add_left hlt _)
    simpa using hm
  have hold : f.ids.filter (· ∉ g.walk root) = f.ids.filter (· ∉ f.walk root) := by
    refine List.filter_congr fun id hid => ?_
    obtain ⟨place, hplace, rfl⟩ := List.mem_map.1 hid
    simp only [regrouped.mem_walk_iff tree later (n := ⟨place⟩) (List.mem_range.1 hplace)]
  rw [hids, List.filter_append, hnew, List.append_nil, hold]

/-- **The function around a node is the same.** -/
theorem enclosingFunction_eq (regrouped : f.Regrouped root g) (tree : f.Treelike)
    (later : g.Treelike) (known : n.raw < f.size) :
    g.enclosingFunction n = f.enclosingFunction n := by
  obtain ⟨owners, howners⟩ := tree.exists_lineage n
  obtain ⟨above, habove, hbelow, rfl⟩ := regrouped.lineage later known howners
  rw [later.enclosingFunction_eq (Nat.lt_of_lt_of_le known regrouped.size) habove,
    tree.enclosingFunction_eq known howners, List.find?_filter]
  refine congrArg Except.ok (List.find?_congr fun owner ho => ?_)
  -- a group is no function, and former nodes have their sorts
  by_cases hold : owner.raw < f.size
  · have htag := regrouped.tag?_eq hold
    simp [isFunction, htag, hold]
  · obtain ⟨node, hnode⟩ := node?_isSome_iff.2 (hbelow owner ho)
    have htag := (regrouped.group hnode (Nat.not_lt.1 hold)).2.2
    have hgroup : g.isFunction owner = false := by
      rw [isFunction, tag?_of_node? hnode, htag]
      rfl
    simp [hgroup, hold]

end Regrouped

end Forest

end SyntaxForest
