/-
**What becomes of each directive.**

On the way through the directives of a document each of them is looked at once, over a forest in
which some groups stand already.  What becomes of it does not depend on those: names are what they
were before the first group was made.  So a directive that shares its name with no other stays at
the top, the first of those that share a name brings a group of all of them about, and when the way
is at its end each directive is at the top or in a group.

Main definitions:

* `Forest.Settled` — what has become of a directive.

Main results:

* `Forest.Grows.abides`, `Forest.abides_disown` — growing, and giving up directives, leaves names
  as they are;
* `Forest.regroupEach_settled` — **the groups answered are those that were made, and each directive
  is settled**;
* `Forest.Settled.covered` — **a directive is at the top or in a group.**
-/

import SyntaxForest.Proofs.Forest.Abiding
import SyntaxForest.Proofs.Forest.Leading

set_option relaxedAutoImplicit false
set_option autoImplicit false

namespace SyntaxForest

namespace Forest

variable {f g h : Forest} {id x root : NodeId} {name : Name} {listed left : List NodeId}
  {members : Name → List NodeId} {fates : List Fate} {fate : Fate} {made new : List Group}
  {more : List NodeId}

/-! ### Names stay -/

theorem Grows.abides (grows : f.Grows g) : f.Abides g :=
  ⟨grows.size, fun hshape _ => grows.shape? hshape⟩

theorem Grows.tag? (grows : f.Grows g) (known : id.raw < f.size) : g.tag? id = f.tag? id := by
  obtain ⟨node, hnode⟩ := node?_isSome_iff.2 known
  obtain ⟨parent, hparent, -⟩ := grows.node hnode
  rw [tag?_of_node? hnode, tag?_of_node? hparent]

/-- A document without directives is still a document. -/
theorem tag?_disown {former : Segment} (document : f.directivesOf root = .ok former)
    (id : NodeId) : (f.disown root).tag? id = f.tag? id := by
  by_cases hid : id = root
  · subst hid
    obtain ⟨node, hnode, hshape⟩ := directivesOf_eq_ok_iff.1 document
    rw [Forest.tag?, node?_disown, hnode, Option.map_some, Option.map_some, tag?_of_node? hnode,
      orphaned, if_pos rfl, hshape]
    rfl
  · have hshape := shape?_disown_of_ne (f := f) hid
    have htag : ∀ f : Forest, f.tag? id = (f.shape? id).map Shape.tag := fun f => by
      rw [Forest.tag?, shape?, Option.map_map]
      rfl
    rw [htag, htag, hshape]

theorem abides_disown {former : Segment} (document : f.directivesOf root = .ok former) :
    f.Abides (f.disown root) where
  size := Nat.le_of_eq (size_disown f root).symm
  shape? {id shape} hshape lasting := by
    refine retains_disown document id shape hshape fun htag => ?_
    cases shape with
    | document directives => cases lasting
    | literal value => cases lasting
    | _ => cases htag

/-! ### One directive -/

/-- What has become of a directive, when groups were made and some nodes are left at the top: one
that declares no function, or whose name has no other member, is left, and for the first of several
members there is a group of the name. -/
structure Settled (f : Forest) (members : Name → List NodeId) (new : List Group)
    (left : List NodeId) (x : NodeId) : Prop where
  /-- One that declares no function is left. -/
  plain : f.tag? x ≠ some .funDirective → x ∈ left
  /-- One whose name has no other member is left. -/
  single : ∀ {name}, f.declaredName x = .ok name → (members name).length < 2 → x ∈ left
  /-- For the first of several members there is a group. -/
  leader : ∀ {name}, f.declaredName x = .ok name → 2 ≤ (members name).length →
    (members name).head? = some x → ∃ group ∈ new, group.name = name

/-- Further groups and further nodes at the top change nothing. -/
theorem Settled.mono {new' : List Group} {left' : List NodeId}
    (settled : f.Settled members new left x) (groups : new ⊆ new') (top : left ⊆ left') :
    f.Settled members new' left' x where
  plain htag := top (settled.plain htag)
  single hname hlt := top (settled.single hname hlt)
  leader hname hle hfirst := by
    obtain ⟨group, hgroup, heq⟩ := settled.leader hname hle hfirst
    exact ⟨group, groups hgroup, heq⟩

/-- A directive that is kept is settled. -/
theorem settled_of_mem (hx : x ∈ left)
    (few : ∀ name, f.declaredName x = .ok name → (members name).length < 2) :
    f.Settled members new left x where
  plain _ := hx
  single _ _ := hx
  leader hname hle _ := absurd (few _ hname) (Nat.not_lt.2 hle)

/-- A directive that shares its name is settled if there is a group when it is the first one. -/
theorem settled_of_name (hname : f.declaredName x = .ok name) (many : 2 ≤ (members name).length)
    (first : (members name).head? = some x → ∃ group ∈ new, group.name = name) :
    f.Settled members new left x := by
  have hsame : ∀ {other}, f.declaredName x = .ok other → other = name := fun hother =>
    Except.ok.inj (hother.symm.trans hname)
  refine ⟨fun htag => absurd ?_ htag, fun hother hlt => ?_, fun hother _ hfirst => ?_⟩
  · obtain ⟨node, declared, exported, hnode, hshape⟩ := funDirective_of_declaredName hname
    rw [tag?_of_node? hnode, hshape]
    rfl
  · rw [hsame hother] at hlt
    exact absurd hlt (Nat.not_lt.2 many)
  · obtain rfl := hsame hother
    exact first hfirst

/-- Over groups that were made a declaration has the name that it had before. -/
theorem Grouped.settled (grouped : Grouped f made more g)
    (settled : g.Settled members new left x) : f.Settled members new left x where
  plain htag := by
    refine settled.plain fun hfun => htag ?_
    by_cases hold : x.raw < f.size
    · rw [← grouped.grows.tag? hold]
      exact hfun
    · obtain ⟨node, hnode, hshape⟩ := tag?_eq_some_iff.1 hfun
      obtain ⟨name, segment, donor, first, rfl⟩ := grouped.group_of_node? hnode (Nat.not_lt.1 hold)
      cases hshape
  single hname hlt := settled.single (grouped.grows.abides.declaredName hname) hlt
  leader hname hle hfirst := settled.leader (grouped.grows.abides.declaredName hname) hle hfirst

/-- A directive is settled by what is done at it. -/
theorem Grouped.regroupOne_settled (grouped : Grouped f made more g)
    (run : regroupOne members x g = .ok fate h) :
    (fate = .kept x ∧ h = g ∧ ∀ new left, x ∈ left → f.Settled members new left x)
      ∨ (fate = .merged ∧ h = g ∧ ∀ new left, f.Settled members new left x)
      ∨ ∃ name, fate = .grouped ⟨f.size + made.length⟩
        ∧ Grouped f (made ++ [⟨name, members name⟩]) (more ++ members name) h
        ∧ ∀ new left, ⟨name, members name⟩ ∈ new → f.Settled members new left x := by
  rcases regroupOne_ok run with
    ⟨hfate, rfl, few⟩ | ⟨name, hname, many, ⟨hfate, rfl, hfirst⟩ | ⟨id, hfate, hgroup⟩⟩
  · exact Or.inl ⟨hfate, rfl, fun new left hx => grouped.settled (settled_of_mem hx few)⟩
  · refine Or.inr (Or.inl ⟨hfate, rfl, fun new left => grouped.settled ?_⟩)
    exact settled_of_name hname many fun h => absurd h hfirst
  · obtain ⟨rfl, hformed⟩ := grouped.form hgroup
    refine Or.inr (Or.inr ⟨name, hfate, hformed, fun new left hm => grouped.settled ?_⟩)
    exact settled_of_name hname many fun _ => ⟨_, hm, rfl⟩

/-! ### All directives -/

/-- **On a way through the directives that succeeds each of them is settled.**  The groups answered
are those that were made, with the members that the table lists, and what is left at the top are
directives and groups. -/
theorem regroupEach_settled (grouped : Grouped f made more g)
    (run : regroupEach members listed g = .ok fates h) :
    ∃ new later, Grouped f (made ++ new) later h
      ∧ (∀ group ∈ new, group.members = members group.name)
      ∧ Fate.groups fates = (List.range' (f.size + made.length) new.length).map NodeId.mk
      ∧ (∀ y ∈ Fate.directives fates, y ∈ listed ∨ y ∈ Fate.groups fates)
      ∧ ∀ x ∈ listed, f.Settled members new (Fate.directives fates) x := by
  induction listed generalizing g fates made more with
  | nil =>
      cases run
      exact ⟨[], more, by rwa [List.append_nil], fun group hg => (nomatch hg), rfl,
        fun y hy => (nomatch hy), fun x hx => (nomatch hx)⟩
  | cons directive rest ih =>
      obtain ⟨fate, between, hfate, hnext⟩ := Step.bind_eq_ok_iff.1 run
      obtain ⟨later, _, hlater, hdone⟩ := Step.bind_eq_ok_iff.1 hnext
      cases hdone
      rcases grouped.regroupOne_settled hfate with
        ⟨rfl, rfl, hself⟩ | ⟨rfl, rfl, hself⟩ | ⟨name, rfl, hformed, hself⟩
      · -- the directive is left at the top
        obtain ⟨new, more, hgrouped, drawn, hgroups, hleft, hrest⟩ := ih grouped hlater
        refine ⟨new, more, hgrouped, drawn, hgroups, fun y hy => ?_, fun x hx => ?_⟩
        · rcases List.mem_cons.1 hy with rfl | hy
          · exact Or.inl List.mem_cons_self
          · exact (hleft y hy).imp_left (List.mem_cons_of_mem _)
        · rcases List.mem_cons.1 hx with rfl | hx
          · exact hself _ _ List.mem_cons_self
          · exact (hrest x hx).mono (fun _ h => h) fun _ h => List.mem_cons_of_mem _ h
      · -- it went into a group that was made before or is made later
        obtain ⟨new, more, hgrouped, drawn, hgroups, hleft, hrest⟩ := ih grouped hlater
        refine ⟨new, more, hgrouped, drawn, hgroups, fun y hy => ?_, fun x hx => ?_⟩
        · exact (hleft y hy).imp_left (List.mem_cons_of_mem _)
        · rcases List.mem_cons.1 hx with rfl | hx
          · exact hself _ _
          · exact hrest x hx
      · -- its group is made
        obtain ⟨new, more, hgrouped, drawn, hgroups, hleft, hrest⟩ := ih hformed hlater
        rw [List.append_assoc] at hgrouped
        rw [List.length_append, List.length_singleton] at hgroups
        refine ⟨_, more, hgrouped, fun group hg => ?_, ?_, fun y hy => ?_, fun x hx => ?_⟩
        · rcases List.mem_cons.1 hg with rfl | hg
          · rfl
          · exact drawn group hg
        · change _ :: Fate.groups later = _
          rw [hgroups]
          rfl
        · rcases List.mem_cons.1 hy with rfl | hy
          · exact Or.inr List.mem_cons_self
          · exact (hleft y hy).imp (List.mem_cons_of_mem _) (List.mem_cons_of_mem _)
        · rcases List.mem_cons.1 hx with rfl | hx
          · exact hself _ _ List.mem_cons_self
          · exact (hrest x hx).mono (fun _ h => List.mem_cons_of_mem _ h)
              fun _ h => List.mem_cons_of_mem _ h

/-- **A settled directive is at the top or in a group,** if the members of the groups are those that
declare their names. -/
theorem Settled.covered {declared : List (Name × NodeId)}
    (settled : ∀ x ∈ listed, g.Settled (membersOf declared) new left x)
    (drawn : ∀ group ∈ new, group.members = membersOf declared group.name)
    (hdeclared : f.declaredNames listed = .ok declared) (abides : f.Abides g)
    (tags : ∀ id, g.tag? id = f.tag? id) (hx : x ∈ listed) :
    x ∈ left ∨ ∃ group ∈ new, x ∈ group.members := by
  by_cases hfun : f.tag? x = some .funDirective
  · obtain ⟨name, hmem⟩ := exists_mem_declaredNames hdeclared hx hfun
    have hname := ((mem_declaredNames_iff hdeclared name x).1 hmem).2.2
    have hmember : x ∈ membersOf declared name := mem_membersOf_iff.2 hmem
    by_cases hfew : (membersOf declared name).length < 2
    · exact Or.inl ((settled x hx).single (abides.declaredName hname) hfew)
    · -- the first member of the name brought a group about
      obtain ⟨first, hfirst⟩ : ∃ first, (membersOf declared name).head? = some first := by
        cases hmembers : membersOf declared name with
        | nil =>
            rw [hmembers] at hmember
            cases hmember
        | cons first rest => exact ⟨first, rfl⟩
      obtain ⟨hlisted, -, hdeclares⟩ := (mem_declaredNames_iff hdeclared name first).1
        (mem_membersOf_iff.1 (List.mem_of_mem_head? hfirst))
      obtain ⟨group, hgroup, rfl⟩ := (settled first hlisted).leader
        (abides.declaredName hdeclares) (Nat.not_lt.1 hfew) hfirst
      exact Or.inr ⟨group, hgroup, by rw [drawn group hgroup]; exact hmember⟩
  · refine Or.inl ((settled x hx).plain ?_)
    rw [tags]
    exact hfun

end Forest

end SyntaxForest
