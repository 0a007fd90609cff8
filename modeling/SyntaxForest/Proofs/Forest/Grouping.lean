/-
**Forming groups.**

While the directives of a document are gone through, groups are made one after the other over the
forest in which the document has given them up.  This module says what such a forest looks like
after any number of groups, and that every way through the directives leaves one, whether it
succeeds or is refused.

Main definitions:

* `Forest.Group` — the name and the members of a group;
* `Forest.Grouped` — a forest over which groups were made;
* `Forest.Formed` — the same, with the members drawn from a table.

Main results:

* `Forest.checkMembers_eq_ok_iff`, `Forest.groupFunctions_eq_ok_iff` — when a group is made;
* `Forest.Grouped.keep`, `Forest.Grouped.form` — what each step makes of a forest over which
  groups were made;
* `Forest.regroupEach_ok`, `Forest.regroupEach_error` — **every way through the directives leaves
  a forest over which groups were made.**
-/

import SyntaxForest.Proofs.Forest.Rollback
import SyntaxForest.Proofs.Forest.Exchange

set_option relaxedAutoImplicit false
set_option autoImplicit false

namespace SyntaxForest

namespace Forest

structure Group where
  name : Name
  members : List NodeId
  deriving DecidableEq

variable {f g h : Forest} {id directive : NodeId} {name : Name} {listed : List NodeId}

/-! ### When a group is made -/

theorem checkMembers_eq_ok_iff :
    f.checkMembers name listed = .ok () ↔ ∀ member ∈ listed, f.declaredName member = .ok name := by
  induction listed with
  | nil => exact ⟨fun _ member hm => (nomatch hm), fun _ => rfl⟩
  | cons member rest ih =>
      rw [checkMembers, List.forall_mem_cons]
      cases hd : f.declaredName member with
      | error refusal => exact ⟨fun h => (nomatch h), fun h => (nomatch h.1)⟩
      | ok found =>
          by_cases hf : found = name
          · simp only [hf, if_true, ih, true_and]
          · simp only [hf, if_false]
            exact ⟨fun h => (nomatch h), fun h => absurd (Except.ok.inj h.1) hf⟩

/-- A node that declares a name is a declaration of a function. -/
theorem funDirective_of_declaredName (hname : f.declaredName id = .ok name) :
    ∃ node declared exported, f.node? id = some node
      ∧ node.shape = .funDirective declared exported := by
  obtain ⟨function, hfunction, -⟩ := Question.bind_eq_ok_iff.1 hname
  obtain ⟨node, hnode, hshape⟩ := Question.bind_eq_ok_iff.1 hfunction
  refine ⟨node, ?_⟩
  cases hs : node.shape with
  | funDirective declared exported =>
      exact ⟨declared, exported, require_eq_ok_iff.1 hnode, rfl⟩
  | _ => rw [hs] at hshape; cases hshape

theorem groupFunctions_eq_ok_iff : groupFunctions name listed f = .ok id g ↔
    ∃ first rest node, listed = first :: rest ∧ listed.length ≤ maxListLength
      ∧ f.lists.size < maxWord ∧ f.node? first = some node
      ∧ (f.keep listed).Admits (.overloads name ⟨f.lists.size, listed.length⟩) node.span
      ∧ id = ⟨f.size⟩
      ∧ g = (f.keep listed).add (.overloads name ⟨f.lists.size, listed.length⟩) node.span
          (some first) := by
  cases listed with
  | nil => exact ⟨fun h => (nomatch h), fun ⟨_, _, _, h, _⟩ => (nomatch h)⟩
  | cons first rest =>
      change (storeList _ _ >>= fun segment => insertDerived (.overloads name segment) first) f = _
        ↔ _
      rw [Step.bind_eq_ok_iff]
      constructor
      · rintro ⟨segment, kept, hkept, hmade⟩
        obtain ⟨rfl, ⟨hnil, -⟩ | ⟨-, hshort, hroom, rfl⟩⟩ := storeList_eq_ok_iff.1 hkept
        · cases hnil
        · obtain ⟨node, hnode, hadmits, hid, hg⟩ := insertDerived_eq_ok_iff.1 hmade
          exact ⟨first, rest, node, rfl, hshort, hroom, hnode, hadmits, hid, hg⟩
      · rintro ⟨_, _, node, heq, hshort, hroom, hnode, hadmits, hid, hg⟩
        cases heq
        exact ⟨_, f.keep (first :: rest), storeList_eq_ok_iff.2
            ⟨rfl, Or.inr ⟨List.cons_ne_nil _ _, hshort, hroom, rfl⟩⟩,
          insertDerived_eq_ok_iff.2 ⟨node, hnode, hadmits, hid, hg⟩⟩

/-- A group that is refused may leave its members in the store. -/
theorem groupFunctions_error {refusal : Refusal}
    (hr : groupFunctions name listed f = .error refusal g) : g = f ∨ g = f.keep listed := by
  cases listed with
  | nil => exact Or.inl (EStateM.Result.error.inj hr).2.symm
  | cons first rest =>
      rcases Step.bind_eq_error_iff.1 hr with hkept | ⟨segment, kept, hkept, hmade⟩
      · exact Or.inl (storeList_refused hkept)
      · rw [insertDerived_refused hmade]
        exact Or.inr (storeList_eq_ok_iff.1 hkept).1

/-- The members of a group that is admitted. -/
theorem Admits.members {span : Span} (admits : (f.keep listed).Admits
    (.overloads name ⟨f.lists.size, listed.length⟩) span) :
    listed.Nodup ∧ (∀ member ∈ listed, f.IsFree ⟨f.size⟩ member)
      ∧ ∀ member ∈ listed, (f.keep listed).declaredName member = .ok name := by
  have hentries : (f.keep listed).list ⟨f.lists.size, listed.length⟩ = listed :=
    Segment.entries_kept f.lists listed
  have hchildren : Shape.children (f.keep listed).lists
      (.overloads name ⟨f.lists.size, listed.length⟩) = listed := hentries
  refine ⟨hchildren ▸ admits.nodup, fun m hm => admits.free m (hchildren.symm ▸ hm), ?_⟩
  have hcontents := admits.contents
  rw [checkContents, hentries] at hcontents
  split at hcontents
  · cases hcontents
  · exact checkMembers_eq_ok_iff.1 hcontents

theorem Admits.members_ne_nil {span : Span} (admits : (f.keep listed).Admits
    (.overloads name ⟨f.lists.size, listed.length⟩) span) : listed ≠ [] := by
  rintro rfl
  cases admits.contents

/-! ### Forests over which groups were made -/

/-- A shape of a group whose members were just kept. -/
def IsGroup (f : Forest) (shape : Shape) : Prop :=
  ∃ (base : Forest) (name : Name) (listed : List NodeId) (span : Span), f = base.keep listed
    ∧ shape = .overloads name ⟨base.lists.size, listed.length⟩ ∧ listed.length ≤ maxListLength
    ∧ f.Admits shape span

/-- Groups were made over a forest, one after the other, and sequences were kept. -/
structure Grouped (f : Forest) (groups : List Group) (more : List NodeId) (g : Forest) :
    Prop where
  tree : g.Treelike
  grows : f.Grows g
  /-- Nothing else was made. -/
  acts : Acts IsGroup f g
  lists : g.lists = f.lists ++ more
  size : g.size = f.size + groups.length
  /-- A group lists its members and is derived from the first of them. -/
  made : ∀ {place group}, groups[place]? = some group →
    ∃ first rest donor segment, group.members = first :: rest ∧ f.node? first = some donor
      ∧ g.node? ⟨f.size + place⟩
          = some (Node.fresh (.overloads group.name segment) donor.span (some first))
      ∧ g.list segment = group.members

variable {groups : List Group} {more : List NodeId}

namespace Grouped

theorem start (tree : f.Treelike) : Grouped f [] [] f where
  tree := tree
  grows := Grows.refl f
  acts := Acts.refl
  lists := by simp
  size := rfl
  made h := by
    rw [List.getElem?_nil] at h
    cases h

theorem childList (grouped : Grouped f groups more g) {place : Nat} {group : Group}
    (h : groups[place]? = some group) : g.childList ⟨f.size + place⟩ = group.members := by
  obtain ⟨first, rest, donor, segment, -, -, hnode, hlist⟩ := grouped.made h
  rw [childList_of_node? hnode]
  exact hlist

/-- An owner among the new nodes is a group, and it owns its members. -/
theorem group_of_parent? (grouped : Grouped f groups more g) {owner child : NodeId}
    (h : g.parent? child = some owner) (hnew : f.size ≤ owner.raw) :
    ∃ place group, owner = ⟨f.size + place⟩ ∧ groups[place]? = some group
      ∧ child ∈ group.members := by
  obtain ⟨place, hplace⟩ := Nat.exists_eq_add_of_le hnew
  obtain rfl := NodeId.eq_of_raw hplace
  have hlt := grouped.tree.lt_size_of_parent? h
  rw [grouped.size] at hlt
  have hgroup : groups[place]? = some groups[place] :=
    List.getElem?_eq_getElem (Nat.lt_of_add_lt_add_left hlt)
  refine ⟨place, groups[place], rfl, hgroup, ?_⟩
  rw [← grouped.childList hgroup, grouped.tree.linked]
  exact h

/-- A new node is a group without an owner. -/
theorem group_of_node? (grouped : Grouped f groups more g) {node : Node}
    (hnode : g.node? id = some node) (hnew : f.size ≤ id.raw) :
    ∃ name segment donor first, node = Node.fresh (.overloads name segment) donor first := by
  have hlt := lt_size_of_node? hnode
  rw [grouped.size] at hlt
  obtain ⟨place, hplace⟩ := Nat.exists_eq_add_of_le hnew
  obtain rfl := NodeId.eq_of_raw hplace
  obtain ⟨first, rest, donor, segment, -, -, hmade, -⟩ :=
    grouped.made (List.getElem?_eq_getElem (Nat.lt_of_add_lt_add_left hlt))
  rw [hmade] at hnode
  cases hnode
  exact ⟨_, _, _, _, rfl⟩

/-- A node that was there before has its owner from before, or it had none. -/
theorem parent?_of_lt (grouped : Grouped f groups more g) {owner child : NodeId}
    (h : g.parent? child = some owner) (hold : owner.raw < f.size) :
    f.parent? child = some owner := by
  by_cases hc : child.raw < f.size
  · obtain ⟨node, hnode⟩ := node?_isSome_iff.2 hc
    obtain ⟨parent, hparent, howner⟩ := grouped.grows.node hnode
    rw [parent?_of_node? hparent] at h
    rw [parent?_of_node? hnode]
    rcases howner with heq | ⟨-, other, hother, hle⟩
    · rw [← heq]
      exact h
    · have hsame : other = owner := Option.some.inj (hother.symm.trans h)
      rw [hsame] at hle
      exact absurd hold (Nat.not_lt.2 hle)
  · -- a group has no owner
    obtain ⟨node, hnode, hparent⟩ := parent?_eq_some_iff.1 h
    obtain ⟨name, segment, donor, first, rfl⟩ := grouped.group_of_node? hnode (Nat.not_lt.1 hc)
    cases hparent

/-- Keeping a sequence changes no group. -/
theorem keep (grouped : Grouped f groups more g) (ids : List NodeId) :
    Grouped f groups (more ++ ids) (g.keep ids) where
  tree := grouped.tree.keep ids
  grows := grouped.grows.trans (Grows.keep g ids)
  acts := grouped.acts.tail (Act.keep ids)
  lists := by
    rw [lists_keep, grouped.lists, grown_grown]
  size := grouped.size
  made hgroup := by
    obtain ⟨first, rest, donor, segment, hmembers, hdonor, hnode, hlist⟩ := grouped.made hgroup
    refine ⟨first, rest, donor, segment, hmembers, hdonor, hnode, ?_⟩
    have hinside : segment.Inside g.lists := grouped.tree.stored hnode segment List.mem_cons_self
    rw [← hlist]
    exact Segment.entries_append hinside ids

/-- A declaration of a function is no group. -/
theorem lt_size_of_declaredName (grouped : Grouped f groups more g) {member : NodeId}
    (hname : g.declaredName member = .ok name) : member.raw < f.size := by
  obtain ⟨node, declared, exported, hnode, hshape⟩ := funDirective_of_declaredName hname
  refine Nat.not_le.1 fun hle => ?_
  obtain ⟨name, segment, donor, first, rfl⟩ := grouped.group_of_node? hnode hle
  cases hshape

/-- Forming a group adds it to the groups. -/
theorem form (grouped : Grouped f groups more g)
    (run : groupFunctions name listed g = .ok id h) :
    id = ⟨f.size + groups.length⟩ ∧ Grouped f (groups ++ [⟨name, listed⟩]) (more ++ listed) h := by
  obtain ⟨first, rest, node, heq, hshort, -, hnode, admits, rfl, rfl⟩ :=
    groupFunctions_eq_ok_iff.1 run
  have hkept := grouped.keep listed
  obtain ⟨-, -, hnames⟩ := admits.members
  have hold : ∀ member ∈ listed, member.raw < f.size := fun member hm =>
    hkept.lt_size_of_declaredName (hnames member hm)
  have hentries : (g.keep listed).list ⟨g.lists.size, listed.length⟩ = listed :=
    Segment.entries_kept g.lists listed
  have hmade : Act IsGroup (g.keep listed) ((g.keep listed).add
      (.overloads name ⟨g.lists.size, listed.length⟩) node.span (some first)) := by
    refine Act.add admits ⟨g, name, listed, node.span, rfl, rfl, hshort, admits⟩ fun d hd => ?_
    cases hd
    exact ⟨node, hnode, rfl⟩
  refine ⟨by rw [grouped.size], hkept.tree.add admits ?_, hkept.grows.trans
    (Grows.add hkept.tree.ownersList admits _), hkept.acts.tail hmade, hkept.lists, ?_,
    fun {place group} hgroup => ?_⟩
  · intro s hs
    obtain rfl := List.mem_singleton.1 hs
    exact Segment.inside_kept g.lists listed
  · rw [size_add, hkept.size, List.length_append, List.length_singleton, Nat.add_assoc]
  · rcases Nat.lt_trichotomy place groups.length with hlt | rfl | hgt
    · -- an earlier group
      rw [List.getElem?_append_left hlt] at hgroup
      obtain ⟨first', rest', donor, segment, hmembers, hdonor, hmade, hlist⟩ := hkept.made hgroup
      refine ⟨first', rest', donor, segment, hmembers, hdonor, ?_, hlist⟩
      have hnotMem : (⟨f.size + place⟩ : NodeId) ∉ listed := fun hm =>
        absurd (hold _ hm) (Nat.not_lt.2 (Nat.le_add_right _ _))
      have hchildren : Shape.children (g.keep listed).lists
          (.overloads name ⟨g.lists.size, listed.length⟩) = listed := hentries
      rw [node?_add_of_lt (lt_size_of_node? hmade), hmade, Option.map_some, hchildren,
        adopted_of_notMem hnotMem]
    · -- the new one
      rw [List.getElem?_append_right (Nat.le_refl _), Nat.sub_self] at hgroup
      cases hgroup
      have hfirst : first.raw < f.size := hold first (heq ▸ List.mem_cons_self)
      obtain ⟨donor, hdonor⟩ := node?_isSome_iff.2 hfirst
      obtain ⟨parent, hparent, -⟩ := grouped.grows.node hdonor
      rw [hnode] at hparent
      cases hparent
      refine ⟨first, rest, donor, _, heq, hdonor, ?_, hentries⟩
      rw [← grouped.size]
      exact node?_add_self admits.notMem_children
    · rw [List.getElem?_eq_none (by rw [List.length_append]; exact hgt)] at hgroup
      cases hgroup

end Grouped

/-! ### Ways through the directives -/

section

variable {members : Name → List NodeId} {failure : Failure} {fates : List Fate} {fate : Fate}

theorem tagOf_eq_ok_iff {tag : Tag} : tagOf id f = .ok tag g ↔ f.tag? id = some tag ∧ g = f := by
  unfold tagOf
  cases f.tag? id with
  | none => exact ⟨fun h => (nomatch h), fun h => (nomatch h.1)⟩
  | some found =>
      constructor
      · intro h
        cases h
        exact ⟨rfl, rfl⟩
      · rintro ⟨h, rfl⟩
        cases h
        rfl

theorem ask_eq_ok_iff {α : Type} {question : Forest → Except Refusal α} {answer : α} :
    ask question f = .ok answer g ↔ question f = .ok answer ∧ g = f := by
  unfold ask
  cases question f with
  | error refusal => exact ⟨fun h => (nomatch h), fun h => (nomatch h.1)⟩
  | ok found =>
      constructor
      · intro h
        cases h
        exact ⟨rfl, rfl⟩
      · rintro ⟨h, rfl⟩
        cases h
        rfl

theorem ask_error {α : Type} {question : Forest → Except Refusal α}
    (hr : ask question f = .error failure g) : g = f ∧ ∃ refusal, failure = .refused refusal := by
  unfold ask at hr
  split at hr
  · cases hr
  · cases hr
    exact ⟨rfl, _, rfl⟩

theorem toAttempt_eq_ok_iff {α : Type} {action : Action α} {answer : α} :
    action.toAttempt f = .ok answer g ↔ action f = .ok answer g := by
  unfold Action.toAttempt
  cases action f with
  | error refusal g => exact ⟨fun h => (nomatch h), fun h => (nomatch h)⟩
  | ok found g =>
      constructor
      · intro h
        cases h
        rfl
      · intro h
        cases h
        rfl

theorem toAttempt_error {α : Type} {action : Action α}
    (hr : action.toAttempt f = .error failure g) :
    ∃ refusal, failure = .refused refusal ∧ action f = .error refusal g := by
  unfold Action.toAttempt at hr
  split at hr
  · cases hr
  · next refusal g' hg =>
      cases hr
      exact ⟨refusal, rfl, hg⟩

/-- A directive stays if it shares its name with no other one; otherwise a group with its name is
made if it is the first member, and it joins an earlier one if not. -/
theorem regroupOne_ok (run : regroupOne members directive f = .ok fate g) :
    (fate = .kept directive ∧ g = f
        ∧ ∀ name, f.declaredName directive = .ok name → (members name).length < 2)
      ∨ ∃ name, f.declaredName directive = .ok name ∧ 2 ≤ (members name).length
        ∧ (fate = .merged ∧ g = f ∧ (members name).head? ≠ some directive
          ∨ ∃ id, fate = .grouped id ∧ groupFunctions name (members name) f = .ok id g) := by
  obtain ⟨tag, _, htag, hnext⟩ := Step.bind_eq_ok_iff.1 run
  obtain ⟨htag, rfl⟩ := tagOf_eq_ok_iff.1 htag
  split at hnext
  · -- it declares no function
    next hother =>
      cases hnext
      refine Or.inl ⟨rfl, rfl, fun name hname => absurd ?_ hother⟩
      obtain ⟨node, declared, exported, hnode, hshape⟩ := funDirective_of_declaredName hname
      rw [tag?, hnode, Option.map_some, hshape] at htag
      exact (Option.some.inj htag).symm
  · obtain ⟨name, between, hname, hjoin⟩ := Step.bind_eq_ok_iff.1 hnext
    obtain ⟨hname, rfl⟩ := ask_eq_ok_iff.1 hname
    have hfew : (members name).length < 2 →
        ∀ other, between.declaredName directive = .ok other → (members other).length < 2 := by
      intro hlt other hother
      rw [hname] at hother
      rwa [← Except.ok.inj hother]
    rcases hmembers : members name with _ | ⟨first, _ | ⟨second, rest⟩⟩ <;> rw [hmembers] at hjoin
    · cases hjoin
      exact Or.inl ⟨rfl, rfl, hfew (by rw [hmembers]; exact Nat.two_pos)⟩
    · cases hjoin
      exact Or.inl ⟨rfl, rfl, hfew (by rw [hmembers]; exact Nat.one_lt_two)⟩
    · have hmany : 2 ≤ (members name).length := by
        rw [hmembers, List.length_cons, List.length_cons]
        omega
      dsimp only at hjoin
      split at hjoin
      · -- it is the first member, and its group is made
        obtain ⟨id, _, hid, hmade⟩ := Step.bind_eq_ok_iff.1 hjoin
        cases hmade
        rw [← hmembers] at hid
        exact Or.inr ⟨name, hname, hmany, Or.inr ⟨id, rfl, toAttempt_eq_ok_iff.1 hid⟩⟩
      · -- it is a later member, and its group was made before
        next hne =>
          cases hjoin
          refine Or.inr ⟨name, hname, hmany, Or.inl ⟨rfl, rfl, ?_⟩⟩
          rw [hmembers]
          exact fun h => hne (Option.some.inj h)

/-- A directive that exists is refused at worst, and at worst some members are left in the
store. -/
theorem regroupOne_error (known : directive.raw < f.size)
    (run : regroupOne members directive f = .error failure g) :
    (∃ refusal, failure = .refused refusal) ∧ ∃ ids, g = f.keep ids := by
  have hself : ∃ ids, f = f.keep ids := ⟨[], (keep_nil f).symm⟩
  rcases Step.bind_eq_error_iff.1 run with htag | ⟨tag, _, htag, hnext⟩
  · obtain ⟨node, hnode⟩ := node?_isSome_iff.2 known
    rw [tagOf, tag?, hnode] at htag
    cases htag
  obtain ⟨-, rfl⟩ := tagOf_eq_ok_iff.1 htag
  split at hnext
  · cases hnext
  rcases Step.bind_eq_error_iff.1 hnext with hname | ⟨name, _, hname, hjoin⟩
  · obtain ⟨rfl, hrefused⟩ := ask_error hname
    exact ⟨hrefused, hself⟩
  obtain ⟨-, rfl⟩ := ask_eq_ok_iff.1 hname
  rcases hmembers : members name with _ | ⟨first, _ | ⟨second, rest⟩⟩ <;> rw [hmembers] at hjoin
  · cases hjoin
  · cases hjoin
  · dsimp only at hjoin
    split at hjoin
    · rcases Step.bind_eq_error_iff.1 hjoin with hgroup | ⟨_, _, _, hmade⟩
      · obtain ⟨refusal, rfl, hrefused⟩ := toAttempt_error hgroup
        rcases groupFunctions_error hrefused with rfl | rfl
        · exact ⟨⟨_, rfl⟩, hself⟩
        · exact ⟨⟨_, rfl⟩, _, rfl⟩
      · cases hmade
    · cases hjoin

/-- Groups with the members that a table lists for their names were made over a forest. -/
def Formed (f : Forest) (members : Name → List NodeId) (g : Forest) : Prop :=
  ∃ groups more, Grouped f groups more g ∧ ∀ group ∈ groups, group.members = members group.name

theorem Formed.keep (formed : Formed f members g) (ids : List NodeId) :
    Formed f members (g.keep ids) := by
  obtain ⟨groups, more, grouped, drawn⟩ := formed
  exact ⟨groups, more ++ ids, grouped.keep ids, drawn⟩

/-- One directive leaves a forest over which groups were made. -/
theorem Formed.regroupOne_ok (formed : Formed f members g)
    (run : regroupOne members directive g = .ok fate h) :
    Formed f members h ∧ (fate = .kept directive ∨ fate = .merged
      ∨ ∃ id, fate = .grouped id ∧ f.size ≤ id.raw) := by
  rcases Forest.regroupOne_ok run with
    ⟨hfate, rfl, -⟩ | ⟨name, -, -, ⟨hfate, rfl, -⟩ | ⟨id, hfate, hgroup⟩⟩
  · exact ⟨formed, Or.inl hfate⟩
  · exact ⟨formed, Or.inr (Or.inl hfate)⟩
  · obtain ⟨groups, more, grouped, drawn⟩ := formed
    obtain ⟨rfl, hformed⟩ := grouped.form hgroup
    refine ⟨⟨_, _, hformed, fun group hg => ?_⟩, Or.inr (Or.inr ⟨_, hfate, Nat.le_add_right _ _⟩)⟩
    rcases List.mem_append.1 hg with hg | hg
    · exact drawn group hg
    · rw [List.mem_singleton.1 hg]

/-- **A way through the directives that succeeds leaves a forest over which groups were made,** and
what is left at the top are directives and groups. -/
theorem regroupEach_ok (formed : Formed f members g)
    (run : regroupEach members listed g = .ok fates h) :
    Formed f members h ∧ ∀ left ∈ Fate.directives fates, left ∈ listed ∨ f.size ≤ left.raw := by
  induction listed generalizing g fates with
  | nil =>
      cases run
      exact ⟨formed, fun left hl => (nomatch hl)⟩
  | cons directive rest ih =>
      obtain ⟨fate, _, hfate, hnext⟩ := Step.bind_eq_ok_iff.1 run
      obtain ⟨later, _, hlater, hdone⟩ := Step.bind_eq_ok_iff.1 hnext
      cases hdone
      obtain ⟨formed, hcases⟩ := formed.regroupOne_ok hfate
      obtain ⟨formed, hleft⟩ := ih formed hlater
      have hrest : ∀ left ∈ Fate.directives later,
          left ∈ directive :: rest ∨ f.size ≤ left.raw := fun left hl =>
        (hleft left hl).imp_left (List.mem_cons_of_mem directive)
      refine ⟨formed, fun left hl => ?_⟩
      rcases hcases with rfl | rfl | ⟨id, rfl, hid⟩
      · rcases List.mem_cons.1 hl with rfl | hl
        · exact Or.inl List.mem_cons_self
        · exact hrest left hl
      · exact hrest left hl
      · rcases List.mem_cons.1 hl with rfl | hl
        · exact Or.inr hid
        · exact hrest left hl

/-- **A way through directives that exist is refused at worst, and then too it leaves a forest over
which groups were made.** -/
theorem regroupEach_error (formed : Formed f members g)
    (known : ∀ directive ∈ listed, directive.raw < f.size)
    (run : regroupEach members listed g = .error failure h) :
    (∃ refusal, failure = .refused refusal) ∧ Formed f members h := by
  induction listed generalizing g with
  | nil => cases run
  | cons directive rest ih =>
      rcases Step.bind_eq_error_iff.1 run with hone | ⟨fate, _, hone, hnext⟩
      · have hknown : directive.raw < g.size := by
          obtain ⟨groups, more, grouped, -⟩ := formed
          exact Nat.lt_of_lt_of_le (known _ List.mem_cons_self) grouped.grows.size
        obtain ⟨hrefused, ids, rfl⟩ := regroupOne_error hknown hone
        exact ⟨hrefused, formed.keep ids⟩
      · obtain ⟨formed, -⟩ := formed.regroupOne_ok hone
        rcases Step.bind_eq_error_iff.1 hnext with hlater | ⟨_, _, _, hdone⟩
        · exact ih formed (fun d hd => known d (List.mem_cons_of_mem _ hd)) hlater
        · cases hdone

end

end Forest

end SyntaxForest
