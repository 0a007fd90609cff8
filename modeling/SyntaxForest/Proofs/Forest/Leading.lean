/-
**Groups in the place of their leaders.**

When the directives of a document are labelled by the names that they declare, each way through
them succeeds as long as there is room: the leader of those that share a label gets their group,
the ones that follow it are merged, and all others are kept.

Main definitions:

* `Forest.Retains` — a forest that has kept the contents of all nodes but documents;
* `Forest.standIn`, `Forest.ledGroups`, `Forest.fateOf` — the group of a leader, the groups of
  some directives, and the fate of a directive;
* `Forest.Groupable` — directives whose groups can be made.

Main results:

* `Forest.Groupable.regroupOne` — the fate of one directive after some others;
* `Forest.Groupable.regroupEach` — **every directive meets its fate**;
* `Forest.Groupable.accepts` — **the document may own what is left.**
-/

import SyntaxForest.Proofs.Forest.Fitting
import SyntaxForest.Proofs.Forest.Regrouping
import SyntaxForest.Proofs.Syntax.Sharing

set_option relaxedAutoImplicit false
set_option autoImplicit false

namespace SyntaxForest

namespace Forest

open Sharing

variable {f g h : Forest} {id root : NodeId} {node : Node} {shape : Shape}

/-! ### Keeping contents -/

/-- All nodes but documents have the contents that they had. -/
def Retains (f g : Forest) : Prop :=
  ∀ id shape, f.shape? id = some shape → shape.tag ≠ .document → g.shape? id = some shape

theorem Retains.trans (first : f.Retains g) (second : g.Retains h) : f.Retains h :=
  fun id shape hshape htag => second id shape (first id shape hshape htag) htag

/-- A declaration goes on declaring its name. -/
theorem Retains.declares {name : Name} (retains : f.Retains g) (declares : f.Declares id name) :
    g.Declares id name := by
  obtain ⟨declared, exported, identifier, returnType, parameters, body, hdirective, hfunction,
    hidentifier⟩ := declares
  exact ⟨declared, exported, identifier, returnType, parameters, body,
    retains _ _ hdirective (by simp [Shape.tag]), retains _ _ hfunction (by simp [Shape.tag]),
    retains _ _ hidentifier (by simp [Shape.tag])⟩

theorem Grows.shape? (grows : f.Grows g) (hshape : f.shape? id = some shape) :
    g.shape? id = some shape := by
  obtain ⟨node, hnode, rfl⟩ := shape?_eq_some_iff.1 hshape
  obtain ⟨parent, hparent, -⟩ := grows.node hnode
  rw [Forest.shape?, hparent]
  rfl

theorem Grows.retains (grows : f.Grows g) : f.Retains g :=
  fun _ _ hshape _ => grows.shape? hshape

theorem shape?_disown_of_ne (hne : id ≠ root) : (f.disown root).shape? id = f.shape? id := by
  rw [shape?, shape?, node?_disown]
  cases f.node? id with
  | none => rfl
  | some node =>
      rw [Option.map_some, Option.map_some, Option.map_some, orphaned, if_neg hne]

/-- A document that gives up its directives leaves all other contents. -/
theorem retains_disown {former : Segment} (document : f.directivesOf root = .ok former) :
    f.Retains (f.disown root) := by
  intro id shape hshape htag
  have hne : id ≠ root := by
    rintro rfl
    obtain ⟨node, hnode, hdocument⟩ := directivesOf_eq_ok_iff.1 document
    rw [shape?_of_node? hnode, hdocument] at hshape
    cases hshape
    exact htag rfl
  rw [shape?_disown_of_ne hne]
  exact hshape

theorem shape?_reshape_of_ne (hne : id ≠ root) :
    (f.reshape root node shape).shape? id = f.shape? id := by
  rw [shape?, shape?]
  cases hid : f.node? id with
  | none => rw [node?_reshape, hid]; rfl
  | some old =>
      obtain ⟨later, hlater, hshape⟩ := exists_node?_reshape hid
      rw [hlater, Option.map_some, Option.map_some, hshape, if_neg hne]

/-- A document that owns new directives leaves the contents of the other nodes. -/
theorem retains_reshape (here : f.node? root = some node) (document : node.shape.tag = .document) :
    f.Retains (f.reshape root node shape) := by
  intro id other hshape htag
  have hne : id ≠ root := by
    rintro rfl
    rw [shape?_of_node? here] at hshape
    cases hshape
    exact htag document
  rw [shape?_reshape_of_ne hne]
  exact hshape

/-! ### Fates -/

section Fates

variable {κ : Type} [DecidableEq κ]

/-- The node that stands in for a leader; the groups are numbered from a place on. -/
def standIn (label : NodeId → Option κ) (listed : List NodeId) (place : Nat) (x : NodeId) :
    NodeId :=
  ⟨place + (leaders label listed).idxOf x⟩

/-- The groups of the leaders among some directives. -/
def ledGroups (label : NodeId → Option κ) (title : NodeId → Name)
    (listed earlier : List NodeId) : List Group :=
  (earlier.filter (leads label listed)).map fun x => ⟨title x, sharing label listed x⟩

/-- The members of the groups of the leaders among some directives. -/
def ledMembers (label : NodeId → Option κ) (listed earlier : List NodeId) : List NodeId :=
  (earlier.filter (leads label listed)).flatMap (sharing label listed)

/-- The fate of a directive. -/
def fateOf (label : NodeId → Option κ) (listed : List NodeId) (place : Nat) (x : NodeId) :
    Fate :=
  if leads label listed x then .grouped (standIn label listed place x)
  else if shared label listed x then .merged
  else .kept x

/-- Directives whose groups can be made over a forest in which nobody owns them. -/
structure Groupable (f : Forest) (label : NodeId → Option κ) (title : NodeId → Name)
    (members : Name → List NodeId) (listed : List NodeId) : Prop where
  nodup : listed.Nodup
  short : listed.length ≤ maxListLength
  free : ∀ x ∈ listed, ∃ node, f.node? x = some node ∧ node.parent = none
  /-- One without a label declares no function. -/
  plain : ∀ x ∈ listed, label x = none → f.tag? x ≠ some .funDirective
  /-- One with a label declares its title. -/
  declares : ∀ x ∈ listed, label x ≠ none → f.Declares x (title x)
  /-- Those that share a label share their title. -/
  titled : ∀ x ∈ listed, ∀ y ∈ listed, label x ≠ none → label y = label x → title y = title x
  /-- The table lists for a title those that share the label. -/
  members : ∀ x ∈ listed, label x ≠ none → members (title x) = sharing label listed x
  room : f.size + (leaders label listed).length ≤ maxWord
  /-- There is room for their members, and for what is left. -/
  store : f.lists.size + (ledMembers label listed listed).length < maxWord

variable {label : NodeId → Option κ} {title : NodeId → Name} {members : Name → List NodeId}
  {listed earlier rest : List NodeId} {x : NodeId} {place : Nat}

theorem Fate.directives_map :
    Fate.directives (listed.map (fateOf label listed place))
      = gathered label listed (standIn label listed place) := by
  rw [Fate.directives, List.filterMap_map, gathered]
  refine List.filterMap_congr fun x _ => ?_
  simp only [Function.comp, fateOf, replaced]
  cases leads label listed x <;> cases shared label listed x <;> rfl

theorem Fate.groups_map :
    Fate.groups (listed.map (fateOf label listed place))
      = (leaders label listed).map (standIn label listed place) := by
  rw [Fate.groups, List.filterMap_map, leaders, ← List.filterMap_eq_map, List.filterMap_filter]
  refine List.filterMap_congr fun x _ => ?_
  simp only [Function.comp, fateOf]
  cases leads label listed x <;> cases shared label listed x <;> rfl

/-- The leaders before and after a leader. -/
theorem leaders_split (split : listed = earlier ++ x :: rest)
    (hleads : leads label listed x = true) :
    leaders label listed
      = earlier.filter (leads label listed) ++ x :: rest.filter (leads label listed) := by
  have hfilter : leaders label listed = (earlier ++ x :: rest).filter (leads label listed) := by
    rw [leaders, ← split]
  rw [hfilter, List.filter_append, List.filter_cons_of_pos hleads]

/-- As many groups are made before that of a leader as there are leaders before it. -/
theorem idxOf_leader (nodup : listed.Nodup) (split : listed = earlier ++ x :: rest)
    (hleads : leads label listed x = true) :
    (leaders label listed).idxOf x = (earlier.filter (leads label listed)).length := by
  have hnotMem : x ∉ earlier.filter (leads label listed) := by
    intro hm
    rw [split] at nodup
    exact (List.nodup_append.1 nodup).2.2 x (List.mem_filter.1 hm).1 x List.mem_cons_self rfl
  rw [leaders_split split hleads, List.idxOf_append_of_notMem hnotMem, List.idxOf_cons_self,
    Nat.add_zero]

theorem ledGroups_of_not_leads (hleads : leads label listed x = false) :
    ledGroups label title listed (earlier ++ [x]) = ledGroups label title listed earlier := by
  rw [ledGroups, List.filter_append, List.filter_cons_of_neg (by simp [hleads]), List.filter_nil,
    List.append_nil, ledGroups]

theorem ledMembers_of_not_leads (hleads : leads label listed x = false) :
    ledMembers label listed (earlier ++ [x]) = ledMembers label listed earlier := by
  rw [ledMembers, List.filter_append, List.filter_cons_of_neg (by simp [hleads]), List.filter_nil,
    List.append_nil, ledMembers]

/-- A leader adds its group. -/
theorem ledGroups_of_leads (hleads : leads label listed x = true) :
    ledGroups label title listed (earlier ++ [x])
      = ledGroups label title listed earlier ++ [⟨title x, sharing label listed x⟩] := by
  rw [ledGroups, List.filter_append, List.filter_cons_of_pos hleads, List.filter_nil,
    List.map_append, ledGroups]
  rfl

theorem ledMembers_of_leads (hleads : leads label listed x = true) :
    ledMembers label listed (earlier ++ [x])
      = ledMembers label listed earlier ++ sharing label listed x := by
  rw [ledMembers, List.filter_append, List.filter_cons_of_pos hleads, List.filter_nil,
    List.flatMap_append, ledMembers, List.flatMap_singleton]

/-- The group of a leader is found at its stand-in. -/
theorem Grouped.led {more : List NodeId}
    (grouped : Grouped f (ledGroups label title listed listed) more g)
    (hx : x ∈ leaders label listed) :
    ∃ (donor : Node) (segment : Segment), g.node? (standIn label listed f.size x)
        = some (Node.fresh (.overloads (title x) segment) donor.span (some x))
      ∧ g.list segment = sharing label listed x := by
  have hgroup : (ledGroups label title listed listed)[(leaders label listed).idxOf x]?
      = some ⟨title x, sharing label listed x⟩ := by
    have hled : ledGroups label title listed listed
        = (leaders label listed).map fun x => ⟨title x, sharing label listed x⟩ := rfl
    rw [hled, List.getElem?_map, List.getElem?_idxOf hx, Option.map_some]
  obtain ⟨first, others, donor, segment, hmembers, -, hnode, hlist⟩ := grouped.made hgroup
  obtain ⟨-, second, later, hsharing⟩ := leads_iff.1 (List.mem_filter.1 hx).2
  have hfirst : first = x := by
    have heq : sharing label listed x = first :: others := hmembers
    rw [hsharing] at heq
    exact (List.cons.inj heq).1.symm
  rw [hfirst] at hnode
  exact ⟨donor, segment, hnode, hlist⟩

/-! ### One directive after the other -/

namespace Groupable

/-- A directive whose leader has not come yet has no owner. -/
theorem parent?_eq_none (groupable : Groupable f label title members listed)
    {more : List NodeId} (grouped : Grouped f (ledGroups label title listed earlier) more g)
    (hx : x ∈ listed)
    (waiting : ∀ leader ∈ earlier, leads label listed leader = true → label leader ≠ label x) :
    g.parent? x = none := by
  refine Option.eq_none_iff_forall_ne_some.2 fun owner howner => ?_
  by_cases hold : owner.raw < f.size
  · obtain ⟨node, hnode, hparent⟩ := groupable.free x hx
    have hformer := grouped.parent?_of_lt howner hold
    rw [parent?_of_node? hnode, hparent] at hformer
    cases hformer
  · obtain ⟨place, group, -, hgroup, hmem⟩ :=
      grouped.group_of_parent? howner (Nat.not_lt.1 hold)
    obtain ⟨leader, hleader, rfl⟩ := List.mem_map.1 (List.mem_of_getElem? hgroup)
    obtain ⟨hearlier, hleads⟩ := List.mem_filter.1 hleader
    exact waiting leader hearlier hleads (mem_sharing.1 hmem).2.symm

/-- The group of a leader is admitted once those before it are made. -/
theorem admits (groupable : Groupable f label title members listed)
    (grouped : Grouped f (ledGroups label title listed earlier) (ledMembers label listed earlier) g)
    (split : listed = earlier ++ x :: rest) (hleads : leads label listed x = true) (span : Span) :
    (g.keep (sharing label listed x)).Admits
      (.overloads (title x) ⟨g.lists.size, (sharing label listed x).length⟩) span := by
  have hx : x ∈ listed := by
    rw [split]
    exact List.mem_append_right _ List.mem_cons_self
  obtain ⟨hlabel, second, others, hsharing⟩ := leads_iff.1 hleads
  have hentries : (g.keep (sharing label listed x)).list
      ⟨g.lists.size, (sharing label listed x).length⟩ = sharing label listed x :=
    Segment.entries_kept _ _
  have hchildren : Shape.children (g.keep (sharing label listed x)).lists
      (.overloads (title x) ⟨g.lists.size, (sharing label listed x).length⟩)
        = sharing label listed x := hentries
  have retains : f.Retains (g.keep (sharing label listed x)) :=
    (grouped.grows.trans (Grows.keep g _)).retains
  refine ⟨?_, ?_, ?_, ?_⟩
  · have hroom := groupable.room
    rw [leaders_split split hleads, List.length_append, List.length_cons] at hroom
    rw [size_keep, grouped.size, ledGroups, List.length_map]
    omega
  · rw [hchildren]
    exact groupable.nodup.filter _
  · intro member hm
    rw [hchildren] at hm
    obtain ⟨hlisted, hsame⟩ := mem_sharing.1 hm
    obtain ⟨node, hnode, -⟩ := groupable.free member hlisted
    obtain ⟨parent, hparent, -⟩ := grouped.grows.node hnode
    have hnone := groupable.parent?_eq_none grouped hlisted fun leader hearlier hfirst heq => by
      -- its leader is `x`, which has not come yet
      obtain rfl := eq_of_leads hleads hfirst (heq.trans hsame)
      have hnodup := groupable.nodup
      rw [split] at hnodup
      exact (List.nodup_append.1 hnodup).2.2 leader hearlier leader List.mem_cons_self rfl
    rw [parent?_of_node? hparent] at hnone
    exact ⟨_, hparent, Or.inl hnone⟩
  · have hmembers : (g.keep (sharing label listed x)).checkMembers (title x)
        (sharing label listed x) = .ok () := by
      refine checkMembers_eq_ok_iff.2 fun member hm => ?_
      obtain ⟨hlisted, hsame⟩ := mem_sharing.1 hm
      have declares := groupable.declares member hlisted (by rw [hsame]; exact hlabel)
      rw [← groupable.titled x hx member hlisted hlabel hsame]
      exact (retains.declares declares).declaredName
    rw [checkContents, hentries, hmembers, hsharing]
    rfl

/-- The group of a leader is made after those before it. -/
theorem form (groupable : Groupable f label title members listed)
    (grouped : Grouped f (ledGroups label title listed earlier) (ledMembers label listed earlier) g)
    (split : listed = earlier ++ x :: rest) (hleads : leads label listed x = true) :
    ∃ h, groupFunctions (title x) (sharing label listed x) g
        = .ok (standIn label listed f.size x) h
      ∧ Grouped f (ledGroups label title listed (earlier ++ [x]))
          (ledMembers label listed (earlier ++ [x])) h := by
  have hx : x ∈ listed := by
    rw [split]
    exact List.mem_append_right _ List.mem_cons_self
  obtain ⟨hlabel, second, others, hsharing⟩ := leads_iff.1 hleads
  obtain ⟨node, hnode, -⟩ := groupable.free x hx
  obtain ⟨parent, hparent, -⟩ := grouped.grows.node hnode
  have hshort : (sharing label listed x).length ≤ maxListLength :=
    Nat.le_trans (List.length_filter_le _ _) groupable.short
  have hstore : g.lists.size < maxWord := by
    have hroom := groupable.store
    have hled : ledMembers label listed listed = (leaders label listed).flatMap
      (sharing label listed) := rfl
    rw [hled, leaders_split split hleads, List.flatMap_append, List.length_append] at hroom
    rw [grouped.lists, size_grown, ledMembers]
    omega
  have run := groupFunctions_eq_ok_iff.2 ⟨x, second :: others, _, hsharing, hshort, hstore,
    hparent, groupable.admits grouped split hleads _, rfl, rfl⟩
  have hplace : standIn label listed f.size x = ⟨g.size⟩ := by
    rw [standIn, idxOf_leader groupable.nodup split hleads, grouped.size, ledGroups,
      List.length_map]
  rw [hplace, ledGroups_of_leads hleads, ledMembers_of_leads hleads]
  exact ⟨_, run, (grouped.form run).2⟩

/-- **A directive meets its fate** once those before it have met theirs. -/
theorem regroupOne (groupable : Groupable f label title members listed)
    (grouped : Grouped f (ledGroups label title listed earlier) (ledMembers label listed earlier) g)
    (split : listed = earlier ++ x :: rest) :
    ∃ h, Forest.regroupOne members x g = .ok (fateOf label listed f.size x) h
      ∧ Grouped f (ledGroups label title listed (earlier ++ [x]))
          (ledMembers label listed (earlier ++ [x])) h := by
  have hx : x ∈ listed := by
    rw [split]
    exact List.mem_append_right _ List.mem_cons_self
  obtain ⟨node, hnode, -⟩ := groupable.free x hx
  have htag : g.tag? x = f.tag? x := by
    obtain ⟨parent, hparent, -⟩ := grouped.grows.node hnode
    rw [tag?_of_node? hnode, tag?_of_node? hparent]
  have hasked := tagOf_eq_ok_iff.2 ⟨htag.trans (tag?_of_node? hnode), rfl⟩
  -- as long as the directive leads nothing, no group is made
  have hidle : leads label listed x = false →
      Grouped f (ledGroups label title listed (earlier ++ [x]))
        (ledMembers label listed (earlier ++ [x])) g := fun hleads => by
    rw [ledGroups_of_not_leads hleads, ledMembers_of_not_leads hleads]
    exact grouped
  unfold Forest.regroupOne
  rw [Step.bind_of_ok hasked]
  by_cases hlabel : label x = none
  · have hshared : shared label listed x = false := by
      rw [shared, hlabel]
      rfl
    have hleads : leads label listed x = false := by
      rw [leads, hshared, Bool.false_and]
    have hplain : node.shape.tag ≠ .funDirective := fun heq =>
      groupable.plain x hx hlabel (by rw [tag?_of_node? hnode, heq])
    rw [if_pos hplain, fateOf, hleads, hshared]
    exact ⟨g, rfl, hidle hleads⟩
  · have declares := groupable.declares x hx hlabel
    have hfun : node.shape.tag = .funDirective := by
      have hdirective := declares.tag?
      rw [tag?_of_node? hnode] at hdirective
      exact Option.some.inj hdirective
    have hname : ask (·.declaredName x) g = .ok (title x) g :=
      ask_eq_ok_iff.2 ⟨(grouped.grows.retains.declares declares).declaredName, rfl⟩
    rw [if_neg (fun h => h hfun), Step.bind_of_ok hname, groupable.members x hx hlabel]
    cases hshared : shared label listed x with
    | false =>
        have hleads : leads label listed x = false := by
          rw [leads, hshared, Bool.false_and]
        rw [fateOf, hleads, hshared]
        rcases hs : sharing label listed x with _ | ⟨first, _ | ⟨second, others⟩⟩
        · exact ⟨g, rfl, hidle hleads⟩
        · exact ⟨g, rfl, hidle hleads⟩
        · rw [shared_iff.2 ⟨hlabel, first, second, others, hs⟩] at hshared
          cases hshared
    | true =>
        obtain ⟨-, first, second, others, hs⟩ := shared_iff.1 hshared
        cases hleads : leads label listed x with
        | false =>
            have hfirst : first ≠ x := by
              rintro rfl
              rw [leads_iff.2 ⟨hlabel, second, others, hs⟩] at hleads
              cases hleads
            rw [fateOf, hleads, hshared, hs]
            dsimp only
            rw [if_neg hfirst]
            exact ⟨g, rfl, hidle hleads⟩
        | true =>
            obtain ⟨h, hmade, hformed⟩ := groupable.form grouped split hleads
            obtain ⟨-, second', others', hs'⟩ := leads_iff.1 hleads
            refine ⟨h, ?_, hformed⟩
            rw [hs'] at hmade ⊢
            dsimp only
            rw [if_pos rfl, Step.bind_of_ok (toAttempt_eq_ok_iff.2 hmade), fateOf, hleads]
            rfl

/-- **Every directive meets its fate.** -/
theorem regroupEach (groupable : Groupable f label title members listed)
    (grouped : Grouped f (ledGroups label title listed earlier) (ledMembers label listed earlier) g)
    (split : listed = earlier ++ rest) :
    ∃ h, Forest.regroupEach members rest g = .ok (rest.map (fateOf label listed f.size)) h
      ∧ Grouped f (ledGroups label title listed listed) (ledMembers label listed listed) h := by
  induction rest generalizing earlier g with
  | nil =>
      rw [List.append_nil] at split
      subst split
      exact ⟨g, rfl, grouped⟩
  | cons x rest ih =>
      obtain ⟨between, hfate, hbetween⟩ := groupable.regroupOne grouped split
      obtain ⟨h, hfates, hlast⟩ := ih hbetween (by rw [split, List.append_assoc]; rfl)
      refine ⟨h, ?_, hlast⟩
      rw [Forest.regroupEach, Step.bind_of_ok hfate, Step.bind_of_ok hfates]
      rfl

/-- **The document may own what is left:** nothing is listed twice, and nobody owns it. -/
theorem accepts (groupable : Groupable f label title members listed) {more : List NodeId}
    (grouped : Grouped f (ledGroups label title listed listed) more g)
    {segment : Segment}
    (hlist : g.list segment = gathered label listed (standIn label listed f.size)) :
    g.Accepts root node (.document segment) := by
  have hchildren : Shape.children g.lists (.document segment)
      = gathered label listed (standIn label listed f.size) := hlist
  refine ⟨?_, fun left hl => ?_, rfl⟩
  · rw [hchildren]
    refine nodup_gathered groupable.nodup (fun leader _ hm => ?_) fun x hx y _ heq => ?_
    · obtain ⟨node, hnode, -⟩ := groupable.free _ hm
      exact absurd (lt_size_of_node? hnode) (Nat.not_lt.2 (Nat.le_add_right _ _))
    · exact (List.idxOf_inj hx).1 (Nat.add_left_cancel (congrArg NodeId.raw heq))
  · rw [hchildren] at hl
    rcases mem_gathered.1 hl with ⟨hlisted, hunshared⟩ | ⟨leader, hleader, rfl⟩
    · have hnone := groupable.parent?_eq_none grouped hlisted fun leader _ hleads heq => by
        rw [← shared_congr heq, shared_of_leads hleads] at hunshared
        cases hunshared
      obtain ⟨old, hold, -⟩ := groupable.free left hlisted
      obtain ⟨parent, hparent, -⟩ := grouped.grows.node hold
      rw [parent?_of_node? hparent] at hnone
      exact ⟨_, hparent, Or.inl hnone⟩
    · obtain ⟨donor, segment, hnode, -⟩ := grouped.led hleader
      exact ⟨_, hnode, Or.inl rfl⟩

end Groupable

end Fates

end Forest

end SyntaxForest
