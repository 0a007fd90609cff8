/-
**Regrouping as a whole.**

Regrouping a document gives up its directives, forms groups and owns the new list.  When all of it
succeeds, the forest is a forest of trees again: the groups stand between the document and the
declarations, and a rank is found for them there.  When a step fails, the groups are dropped and
the former list is owned again, and nothing has changed.

Main results:

* `Forest.regroup_parts`, `Forest.regroup_error` — what regrouping is made of, and what a failure
  leaves behind;
* `Forest.Treelike.regroupDocument` — **a regrouped forest of trees is one again**;
* `Forest.Treelike.regroupOrRestore_error`, `Forest.Treelike.regroupDocument_error` — **a failure
  changes nothing.**
-/

import SyntaxForest.Proofs.Forest.Grouping

set_option relaxedAutoImplicit false
set_option autoImplicit false

namespace SyntaxForest

namespace Forest

variable {f g h : Forest} {id root : NodeId} {node : Node} {former : Segment}
  {listed groups : List NodeId} {members : Name → List NodeId} {failure : Failure}

theorem directivesOf_eq_ok_iff : f.directivesOf root = .ok former ↔
    ∃ node, f.node? root = some node ∧ node.shape = .document former := by
  unfold directivesOf
  rw [Question.bind_eq_ok_iff]
  constructor
  · rintro ⟨node, hnode, hshape⟩
    refine ⟨node, require_eq_ok_iff.1 hnode, ?_⟩
    cases hs : node.shape with
    | document directives =>
        rw [hs] at hshape
        rw [Except.ok.inj hshape]
    | _ => rw [hs] at hshape; cases hshape
  · rintro ⟨node, hnode, hshape⟩
    refine ⟨node, require_eq_ok_iff.2 hnode, ?_⟩
    rw [hshape]

theorem childList_of_directivesOf (document : f.directivesOf root = .ok former) :
    f.childList root = f.list former := by
  obtain ⟨node, hnode, hshape⟩ := directivesOf_eq_ok_iff.1 document
  rw [childList_of_node? hnode, childrenOf, hshape]
  rfl

/-- A document gives up its directives before anything else. -/
theorem Treelike.regroup_eq (tree : f.Treelike) (document : f.directivesOf root = .ok former) :
    regroup root listed members f = (do
      let fates ← regroupEach members listed
      let segment ← (storeList (Fate.directives fates) "directives").toAttempt
      replaceShape root (.document segment)
      return Fate.groups fates : Attempt (List NodeId)) (f.disown root) := by
  obtain ⟨node, hnode, -⟩ := directivesOf_eq_ok_iff.1 document
  exact Step.bind_of_ok (tree.replaceShape_empty hnode)

theorem formed_disown (tree : f.Treelike) (root : NodeId) :
    Formed (f.disown root) members (f.disown root) :=
  ⟨[], [], Grouped.start (tree.disown root), fun _ hg => (nomatch hg)⟩

/-- While groups are formed the document owns nothing. -/
theorem Grouped.childless {made : List Group} {more : List NodeId}
    (grouped : Grouped (f.disown root) made more g) (known : root.raw < f.size) :
    g.childList root = [] := by
  refine List.eq_nil_iff_forall_not_mem.2 fun child hc => ?_
  have hparent := (grouped.tree.linked root child).1 hc
  have hlt : root.raw < (f.disown root).size := by rwa [size_disown]
  exact parent?_disown_ne_root f root child (grouped.parent?_of_lt hparent hlt)

/-! ### Success -/

/-- A document is regrouped by going through its directives, keeping what is left of them, and
owning that. -/
theorem regroup_parts (tree : f.Treelike) (document : f.directivesOf root = .ok former)
    (run : regroup root listed members f = .ok groups g) :
    ∃ fates segment passed node, regroupEach members listed (f.disown root) = .ok fates passed
      ∧ groups = Fate.groups fates
      ∧ segment.Inside (passed.keep (Fate.directives fates)).lists
      ∧ segment.length ≤ maxListLength
      ∧ (passed.keep (Fate.directives fates)).list segment = Fate.directives fates
      ∧ (passed.keep (Fate.directives fates)).node? root = some node
      ∧ (passed.keep (Fate.directives fates)).Accepts root node (.document segment)
      ∧ g = (passed.keep (Fate.directives fates)).reshape root node (.document segment) := by
  rw [tree.regroup_eq document] at run
  obtain ⟨fates, passed, hfates, hnext⟩ := Step.bind_eq_ok_iff.1 run
  obtain ⟨segment, kept, hkept, hreplace⟩ := Step.bind_eq_ok_iff.1 hnext
  obtain ⟨_, _, hreplaced, hdone⟩ := Step.bind_eq_ok_iff.1 hreplace
  cases hdone
  obtain ⟨node, hnode, accepts, -, rfl⟩ := replaceShape_eq_ok_iff.1 hreplaced
  obtain ⟨rfl, hinside, hshort, hlist⟩ := storeList_kept (toAttempt_eq_ok_iff.1 hkept)
  exact ⟨fates, segment, passed, node, hfates, rfl, hinside, hshort, hlist, hnode, accepts, rfl⟩

/-- The new list of directives comes from the way through the former ones. -/
theorem regroup_ok (tree : f.Treelike) (document : f.directivesOf root = .ok former)
    (run : regroup root listed members f = .ok groups g) :
    ∃ fates segment between node, Formed (f.disown root) members between
      ∧ (∀ left ∈ Fate.directives fates, left ∈ listed ∨ f.size ≤ left.raw)
      ∧ segment.Inside between.lists ∧ segment.length ≤ maxListLength
      ∧ between.list segment = Fate.directives fates
      ∧ between.node? root = some node ∧ between.Accepts root node (.document segment)
      ∧ g = between.reshape root node (.document segment) := by
  obtain ⟨fates, segment, passed, node, hfates, -, hinside, hshort, hlist, hnode, accepts, rfl⟩ :=
    regroup_parts tree document run
  obtain ⟨formed, hleft⟩ := regroupEach_ok (formed_disown tree root) hfates
  rw [size_disown] at hleft
  exact ⟨fates, segment, _, node, formed.keep _, hleft, hinside, hshort, hlist, hnode, accepts, rfl⟩

/-- **A forest of trees is one again after its document is regrouped,** if the members of groups
are drawn from its directives. -/
theorem Treelike.regroup (tree : f.Treelike) (document : f.directivesOf root = .ok former)
    (drawn : ∀ name, ∀ member ∈ members name, member ∈ f.childList root)
    (run : regroup root (f.list former) members f = .ok groups g) : g.Treelike := by
  obtain ⟨fates, segment, between, node, formed, hleft, hinside, -, hlist, hnode, accepts, rfl⟩ :=
    regroup_ok tree document run
  have hroot : root.raw < f.size := by
    obtain ⟨former, hformer, -⟩ := directivesOf_eq_ok_iff.1 document
    exact lt_size_of_node? hformer
  have hchildren : Shape.children between.lists (.document segment) = Fate.directives fates := hlist
  obtain ⟨formed, more, grouped, hmembers⟩ := formed
  have childless := grouped.childless hroot
  refine grouped.tree.reshape hnode childless accepts ?_ ?_
  · intro s hs
    obtain rfl := List.mem_singleton.1 hs
    exact hinside
  · obtain ⟨rank, hrank⟩ := tree.ranked
    have hold : ∀ child, f.parent? child = some root → rank root < rank child :=
      fun child h => hrank h
    -- twice the rank leaves room for the groups right above the document
    let doubled : NodeId → Nat := fun id =>
      if id.raw < f.size then 2 * rank id else 2 * rank root + 1
    have hbefore : ∀ id : NodeId, id.raw < f.size → doubled id = 2 * rank id := fun id h => if_pos h
    have hgroup : ∀ id : NodeId, f.size ≤ id.raw → doubled id = 2 * rank root + 1 :=
      fun id h => if_neg (Nat.not_lt.2 h)
    refine ⟨doubled, fun {owner child} hparent => ?_, fun child hc => ?_⟩
    · by_cases ho : owner.raw < f.size
      · have hformer := grouped.parent?_of_lt hparent (by rwa [size_disown])
        rw [parent?_disown] at hformer
        split at hformer
        · cases hformer
        · obtain ⟨old, hold, -⟩ := parent?_eq_some_iff.1 hformer
          have hlt := hrank hformer
          rw [hbefore owner ho, hbefore child (lt_size_of_node? hold)]
          omega
      · have hle : (f.disown root).size ≤ owner.raw := by rw [size_disown]; exact Nat.not_lt.1 ho
        obtain ⟨place, group, -, hplace, hmem⟩ := grouped.group_of_parent? hparent hle
        rw [hmembers group (List.mem_of_getElem? hplace)] at hmem
        have hchild := (tree.linked root child).1 (drawn _ child hmem)
        obtain ⟨old, hold', -⟩ := parent?_eq_some_iff.1 hchild
        have hlt := hold child hchild
        rw [hgroup owner (Nat.not_lt.1 ho), hbefore child (lt_size_of_node? hold')]
        omega
    · rw [hchildren] at hc
      rw [hbefore root hroot]
      rcases hleft child hc with hm | hle
      · rw [← childList_of_directivesOf document] at hm
        have hchild := (tree.linked root child).1 hm
        obtain ⟨old, hold', -⟩ := parent?_eq_some_iff.1 hchild
        have hlt := hold child hchild
        rw [hbefore child (lt_size_of_node? hold')]
        omega
      · rw [hgroup child hle]
        omega

/-! ### Failure -/

/-- A failure is a refusal, and it leaves a forest over which groups were made. -/
theorem regroup_error (tree : f.Treelike) (document : f.directivesOf root = .ok former)
    (known : ∀ directive ∈ listed, directive.raw < f.size)
    (run : regroup root listed members f = .error failure g) :
    (∃ refusal, failure = .refused refusal) ∧ Formed (f.disown root) members g := by
  rw [tree.regroup_eq document] at run
  have hroot : root.raw < f.size := by
    obtain ⟨former, hformer, -⟩ := directivesOf_eq_ok_iff.1 document
    exact lt_size_of_node? hformer
  rcases Step.bind_eq_error_iff.1 run with hfates | ⟨fates, between, hfates, hnext⟩
  · -- a directive was refused
    refine regroupEach_error (formed_disown tree root) (fun d hd => ?_) hfates
    rw [size_disown]
    exact known d hd
  obtain ⟨formed, -⟩ := regroupEach_ok (formed_disown tree root) hfates
  rcases Step.bind_eq_error_iff.1 hnext with hkept | ⟨segment, kept, hkept, hreplace⟩
  · -- what is left does not fit into the store
    obtain ⟨refusal, rfl, hrefused⟩ := toAttempt_error hkept
    rw [storeList_refused hrefused]
    exact ⟨⟨_, rfl⟩, formed⟩
  obtain ⟨rfl, -⟩ := storeList_eq_ok_iff.1 (toAttempt_eq_ok_iff.1 hkept)
  have formed := formed.keep (Fate.directives fates)
  rcases Step.bind_eq_error_iff.1 hreplace with hreplaced | ⟨_, _, _, hdone⟩
  · -- the document was refused; it owns nothing, so no child of it can be missing
    obtain ⟨rfl, hrefused⟩ := replaceShape_error hreplaced
    refine ⟨hrefused fun child hc => ?_, formed⟩
    obtain ⟨made, more, grouped, -⟩ := formed
    rw [grouped.childless hroot] at hc
    cases hc
  · cases hdone

/-- The directives of a document in a forest of trees exist. -/
theorem Treelike.lt_size_of_directive (tree : f.Treelike)
    (document : f.directivesOf root = .ok former) :
    ∀ directive ∈ f.list former, directive.raw < f.size := by
  intro directive hd
  rw [← childList_of_directivesOf document] at hd
  obtain ⟨node, hnode, -⟩ := tree.node?_of_mem hd
  exact lt_size_of_node? hnode

/-- **If the directives of a document cannot be regrouped, they are restored.** -/
theorem Treelike.regroupOrRestore_error (tree : f.Treelike)
    (document : f.directivesOf root = .ok former)
    (run : regroupOrRestore root former members f = .error failure g) :
    g = f ∧ ∃ refusal, failure = .refused refusal := by
  obtain ⟨node, hnode, hshape⟩ := directivesOf_eq_ok_iff.1 document
  unfold regroupOrRestore at run
  cases hr : Forest.regroup root (f.list former) members f with
  | ok groups h =>
      rw [hr] at run
      cases run
  | error failure' h =>
      obtain ⟨⟨refusal, rfl⟩, groups, more, grouped, -⟩ :=
        regroup_error tree document (tree.lt_size_of_directive document) hr
      -- the groups that were made stand behind the mark, so only the directives are missing
      have hrollback : h.rollback f.mark = f.disown root := by
        rw [← mark_disown f root]
        exact grouped.grows.rollback_eq (tree.disown root).ownersList grouped.tree.ownersList
      rw [hr] at run
      simp only [hrollback, tree.replaceShape_former hnode hshape] at run
      cases run
      exact ⟨rfl, _, rfl⟩

/-! ### Documents -/

/-- The declared names are those of the directives that declare functions, each with its
directive. -/
theorem mem_declaredNames_iff {declared : List (Name × NodeId)}
    (h : f.declaredNames listed = .ok declared) (name : Name) (directive : NodeId) :
    (name, directive) ∈ declared ↔ directive ∈ listed ∧ f.tag? directive = some .funDirective
      ∧ f.declaredName directive = .ok name := by
  induction listed generalizing declared with
  | nil =>
      cases h
      exact ⟨fun hm => (nomatch hm), fun hm => (nomatch hm.1)⟩
  | cons first rest ih =>
      rw [declaredNames] at h
      split at h
      · cases h
      · next tag htag =>
          split at h
          · next hfun =>
              split at h
              · cases h
              · next found hfound =>
                  obtain ⟨later, hlater, rfl⟩ := Question.map_eq_ok_iff.1 h
                  rw [List.mem_cons, List.mem_cons, ih hlater, Prod.mk.injEq]
                  constructor
                  · rintro (⟨rfl, rfl⟩ | ⟨hm, hrest⟩)
                    · exact ⟨Or.inl rfl, by rw [htag, hfun], hfound⟩
                    · exact ⟨Or.inr hm, hrest⟩
                  · rintro ⟨rfl | hm, hrest⟩
                    · rw [hfound] at hrest
                      exact Or.inl ⟨(Except.ok.inj hrest.2).symm, rfl⟩
                    · exact Or.inr ⟨hm, hrest⟩
          · next hother =>
              rw [ih h, List.mem_cons]
              refine ⟨fun hm => ⟨Or.inr hm.1, hm.2⟩, ?_⟩
              rintro ⟨rfl | hm, hrest⟩
              · rw [htag] at hrest
                exact absurd (Option.some.inj hrest.1) hother
              · exact ⟨hm, hrest⟩

/-- Every directive that declares a function declares a name. -/
theorem exists_mem_declaredNames {declared : List (Name × NodeId)} {directive : NodeId}
    (h : f.declaredNames listed = .ok declared) (hm : directive ∈ listed)
    (function : f.tag? directive = some .funDirective) : ∃ name, (name, directive) ∈ declared := by
  induction listed generalizing declared with
  | nil => cases hm
  | cons first rest ih =>
      rw [declaredNames] at h
      split at h
      · cases h
      · next tag htag =>
          split at h
          · split at h
            · cases h
            · next found _ =>
                obtain ⟨later, hlater, rfl⟩ := Question.map_eq_ok_iff.1 h
                rcases List.mem_cons.1 hm with rfl | hm
                · exact ⟨found, List.mem_cons_self⟩
                · obtain ⟨name, hname⟩ := ih hlater hm
                  exact ⟨name, List.mem_cons_of_mem _ hname⟩
          · next hother =>
              rcases List.mem_cons.1 hm with rfl | hm
              · rw [htag] at function
                exact absurd (Option.some.inj function) hother
              · exact ih h hm

theorem mem_membersOf_iff {declared : List (Name × NodeId)} {name : Name} {member : NodeId} :
    member ∈ membersOf declared name ↔ (name, member) ∈ declared := by
  simp [membersOf]

theorem mem_of_mem_membersOf {declared : List (Name × NodeId)}
    (h : f.declaredNames listed = .ok declared) (name : Name) :
    ∀ member ∈ membersOf declared name, member ∈ listed := fun member hm =>
  ((mem_declaredNames_iff h name member).1 (mem_membersOf_iff.1 hm)).1

/-- The names of directives that exist are refused at worst. -/
theorem declaredNames_error (known : ∀ directive ∈ listed, directive.raw < f.size)
    (h : f.declaredNames listed = .error failure) : ∃ refusal, failure = .refused refusal := by
  induction listed with
  | nil => cases h
  | cons directive rest ih =>
      have hrest : ∀ d ∈ rest, d.raw < f.size := fun d hd => known d (List.mem_cons_of_mem _ hd)
      rw [declaredNames] at h
      split at h
      · next hnone =>
          obtain ⟨node, hnode⟩ := node?_isSome_iff.2 (known directive List.mem_cons_self)
          rw [tag?, hnode] at hnone
          cases hnone
      · split at h
        · split at h
          · cases h
            exact ⟨_, rfl⟩
          · cases hd : f.declaredNames rest with
            | ok later => rw [hd] at h; cases h
            | error other =>
                rw [hd] at h
                cases h
                exact ih hrest hd
        · exact ih hrest h

/-- A document whose directives declare their names regroups those that share one. -/
theorem regroupDocument_eq {declared : List (Name × NodeId)}
    (document : f.directivesOf root = .ok former)
    (hdeclared : f.declaredNames (f.list former) = .ok declared) :
    regroupDocument root f
      = if groupsNeeded declared then regroupOrRestore root former (membersOf declared) f
        else .ok [] f := by
  have hask : ask (·.directivesOf root) f = .ok former f := ask_eq_ok_iff.2 ⟨document, rfl⟩
  unfold regroupDocument
  rw [Step.bind_of_ok hask]
  refine (Step.bind_of_ok (a := declared) (t := f) ?_).trans ?_
  · simp only [hdeclared]
  · split <;> rfl

/-- Regrouping a document is refused before anything is done, or it regroups the directives that
share a name. -/
theorem regroupDocument_cases (root : NodeId) (f : Forest) :
    (∃ refusal, regroupDocument root f = .error (.refused refusal) f)
      ∨ ∃ former, f.directivesOf root = .ok former
        ∧ ((∃ failure, f.declaredNames (f.list former) = .error failure
            ∧ regroupDocument root f = .error failure f)
          ∨ ∃ declared, f.declaredNames (f.list former) = .ok declared
            ∧ regroupDocument root f
              = if groupsNeeded declared then regroupOrRestore root former (membersOf declared) f
                else .ok [] f) := by
  cases hd : f.directivesOf root with
  | error refusal =>
      refine Or.inl ⟨refusal, Step.bind_eq_error_iff.2 (Or.inl ?_)⟩
      simp only [ask, hd]
  | ok former =>
      refine Or.inr ⟨former, rfl, ?_⟩
      cases hn : f.declaredNames (f.list former) with
      | ok declared => exact Or.inr ⟨declared, rfl, regroupDocument_eq hd hn⟩
      | error failure =>
          have hask : ask (·.directivesOf root) f = .ok former f := ask_eq_ok_iff.2 ⟨hd, rfl⟩
          refine Or.inl ⟨failure, rfl, ?_⟩
          unfold regroupDocument
          rw [Step.bind_of_ok hask]
          refine Step.bind_eq_error_iff.2 (Or.inl ?_)
          simp only [hn]

/-- A document that is regrouped owns the list that comes from its own declared names, or nothing
was to be done. -/
theorem Treelike.regroupDocument_ok (tree : f.Treelike)
    (run : regroupDocument root f = .ok groups g) :
    ∃ former, f.directivesOf root = .ok former
      ∧ ((∃ declared, f.declaredNames (f.list former) = .ok declared
          ∧ Forest.regroup root (f.list former) (membersOf declared) f = .ok groups g)
        ∨ groups = [] ∧ g = f) := by
  rcases regroupDocument_cases root f with ⟨refusal, hr⟩ | ⟨former, document, ⟨failure, -, hr⟩ |
    ⟨declared, hdeclared, hr⟩⟩
  · rw [hr] at run
    cases run
  · rw [hr] at run
    cases run
  · rw [hr] at run
    refine ⟨former, document, ?_⟩
    split at run
    · unfold regroupOrRestore at run
      cases hregroup : Forest.regroup root (f.list former) (membersOf declared) f with
      | ok groups h =>
          rw [hregroup] at run
          cases run
          exact Or.inl ⟨declared, hdeclared, hregroup⟩
      | error failure h =>
          obtain ⟨⟨refusal, rfl⟩, -⟩ :=
            regroup_error tree document (tree.lt_size_of_directive document) hregroup
          rw [hregroup] at run
          dsimp only at run
          split at run <;> cases run
    · cases run
      exact Or.inr ⟨rfl, rfl⟩

/-- **A document that is regrouped leaves a forest of trees.** -/
theorem Treelike.regroupDocument (tree : f.Treelike)
    (run : regroupDocument root f = .ok groups g) : g.Treelike := by
  obtain ⟨former, document, ⟨declared, hdeclared, hregroup⟩ | ⟨-, rfl⟩⟩ :=
    tree.regroupDocument_ok run
  · refine tree.regroup document (fun name member hm => ?_) hregroup
    rw [childList_of_directivesOf document]
    exact mem_of_mem_membersOf hdeclared name member hm
  · exact tree

/-- **A document that cannot be regrouped is left as it was.** -/
theorem Treelike.regroupDocument_error (tree : f.Treelike)
    (run : Forest.regroupDocument root f = .error failure g) :
    g = f ∧ ∃ refusal, failure = .refused refusal := by
  rcases regroupDocument_cases root f with ⟨refusal, hr⟩ | ⟨former, document, ⟨failure, hn, hr⟩ |
    ⟨declared, -, hr⟩⟩
  · rw [hr] at run
    cases run
    exact ⟨rfl, _, rfl⟩
  · rw [hr] at run
    cases run
    exact ⟨rfl, declaredNames_error (tree.lt_size_of_directive document) hn⟩
  · rw [hr] at run
    split at run
    · exact tree.regroupOrRestore_error document run
    · cases run

end Forest

end SyntaxForest
