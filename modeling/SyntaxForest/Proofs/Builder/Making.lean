/-
**Making one node of a tree.**

Over parts that are there, that nobody owns and that are what the slots of a form take, the node of
the form can be made as long as there is room.  The contents of the new node say the form and the
parts.  Of the other nodes only the parts change, and only in that they have an owner.

Main definitions:

* `Slot.Holds` — a slot that holds nodes of the sorts that it takes;
* `Builder.make`, `Builder.makeAt` — the step that makes the node of a form, and the parentheses;
* `Builder.Ready` — a builder that can make a node over some parts;
* `Forest.Makes` — a forest in which a node was made.

Main results:

* `Slot.holds_of_takes` — nodes of the sorts that a slot takes;
* `Builder.Ready.completes` — **the node of a form is made.**
-/

import SyntaxForest.Proofs.Builder.Reach
import SyntaxForest.Proofs.Forest.Reading

set_option relaxedAutoImplicit false
set_option autoImplicit false

namespace SyntaxForest

open Forest

/-! ### Slots that hold nodes -/

/-- A slot holds nodes of sorts that it takes. -/
def Slot.Holds (f : Forest) : Slot → List NodeId → Prop
  | one accepts, ids => ∃ id, ids = [id] ∧ f.Holds accepts id
  | optional accepts, ids => ids = [] ∨ ∃ id, ids = [id] ∧ f.Holds accepts id
  | many accepts, ids => ids.length ≤ maxListLength ∧ f.HoldsAll accepts ids
  | arms, ids =>
      ids.length ≤ maxListLength ∧ f.HoldsAll Tag.isArm ids
        ∧ f.HoldsAll (· ≠ .defaultArm) ids.dropLast

theorem Forest.holdsAll_of_tags {f : Forest} {accepts : Tag → Bool} {ids : List NodeId}
    {tags : List Tag} (same : List.Forall₂ (fun id tag => f.tag? id = some tag) ids tags)
    (h : ∀ tag ∈ tags, accepts tag = true) : f.HoldsAll accepts ids := by
  induction same with
  | nil => exact fun slot hs => (nomatch hs)
  | @cons id tag ids tags hid _ ih =>
      intro slot hs
      rcases List.mem_cons.1 hs with rfl | hs
      · exact ⟨tag, hid, h tag List.mem_cons_self⟩
      · exact ih (fun other ho => h other (List.mem_cons_of_mem _ ho)) slot hs

/-- Nodes of the sorts that a slot takes are held by it. -/
theorem Slot.holds_of_takes {f : Forest} {slot : Slot} {ids : List NodeId} {tags : List Tag}
    (same : List.Forall₂ (fun id tag => f.tag? id = some tag) ids tags) (takes : slot.Takes tags) :
    slot.Holds f ids := by
  have hlength := same.length_eq
  cases slot with
  | one accepts =>
      obtain ⟨tag, rfl, haccepts⟩ := takes
      obtain ⟨id, _, hid, hnil, rfl⟩ := List.forall₂_cons_right_iff.1 same
      rw [List.forall₂_nil_right_iff.1 hnil]
      exact ⟨id, rfl, tag, hid, haccepts⟩
  | optional accepts =>
      rcases takes with rfl | ⟨tag, rfl, haccepts⟩
      · exact Or.inl (List.forall₂_nil_right_iff.1 same)
      · obtain ⟨id, _, hid, hnil, rfl⟩ := List.forall₂_cons_right_iff.1 same
        rw [List.forall₂_nil_right_iff.1 hnil]
        exact Or.inr ⟨id, rfl, tag, hid, haccepts⟩
  | many accepts =>
      obtain ⟨hshort, hall⟩ := takes
      exact ⟨hlength ▸ hshort, holdsAll_of_tags same hall⟩
  | arms =>
      obtain ⟨hshort, hall, hlast⟩ := takes
      have hfirst : List.Forall₂ (fun id tag => f.tag? id = some tag) ids.dropLast
          tags.dropLast := by
        rw [List.dropLast_eq_take, List.dropLast_eq_take, hlength]
        exact List.forall₂_take _ same
      exact ⟨hlength ▸ hshort, holdsAll_of_tags same hall,
        holdsAll_of_tags hfirst fun tag ht => decide_eq_true (hlast tag ht)⟩

/-- A forest in which the node of a form was made over its parts. -/
structure Forest.Makes (f g : Forest) (names : NameTable) (form : Form)
    (parts : List (List NodeId)) (place : Place) : Prop where
  size : g.size = f.size + 1
  /-- Its contents say the form and the parts. -/
  made : ∃ node, g.node? ⟨f.size⟩ = some node ∧ g.view names node.shape = some (form, parts)
    ∧ (⟨node.span, node.parenthesized⟩ : Place) = place ∧ node.parent = none
  /-- The other nodes are the same, except that the parts have an owner. -/
  other : ∀ {id node}, f.node? id = some node →
    g.node? id = some (adopted ⟨f.size⟩ parts.flatten id node)
  lists : g.lists = f.lists ++ form.sequence parts

/-- The new node may still be written to. -/
theorem Forest.Makes.replace {f g : Forest} {names : NameTable} {form : Form}
    {parts : List (List NodeId)} {place : Place} {old new : Node}
    (makes : f.Makes g names form parts place) (here : g.node? ⟨f.size⟩ = some old)
    (shape : new.shape = old.shape) (parent : new.parent = old.parent) :
    f.Makes (g.replace ⟨f.size⟩ new) names form parts ⟨new.span, new.parenthesized⟩ := by
  obtain ⟨node, hnode, hview, -, hparent⟩ := makes.made
  obtain rfl := Option.some.inj (here.symm.trans hnode)
  refine ⟨by rw [size_replace, makes.size], ⟨new, node?_replace_self here, ?_, rfl, ?_⟩,
    fun {id node} hbefore => ?_, by rw [lists_replace, makes.lists]⟩
  · rw [shape, view_congr (lists_replace _ _ _), hview]
  · rw [parent, hparent]
  · rw [node?_replace_of_ne, makes.other hbefore]
    rintro rfl
    exact absurd (lt_size_of_node? hbefore) (Nat.lt_irrefl _)

theorem Forest.Makes.keeps {f g : Forest} {names : NameTable} {form : Form}
    {parts : List (List NodeId)} {place : Place} (makes : f.Makes g names form parts place) :
    f.Keeps g fun _ => True := Keeps.of_adopted makes.other ⟨_, makes.lists⟩

namespace Builder

/-! ### The step of a form -/

/-- The part in a slot that takes one. -/
def partIn (parts : List (List NodeId)) (slot : Nat) : NodeId :=
  (parts.getD slot []).head?.getD NodeId.absent

/-- The part in a slot that takes one or none. -/
def partIn? (parts : List (List NodeId)) (slot : Nat) : Option NodeId :=
  (parts.getD slot []).head?

def partsIn (parts : List (List NodeId)) (slot : Nat) : List NodeId := parts.getD slot []

/-- **The step that makes the node of a form** over its parts. -/
def make (form : Form) (parts : List (List NodeId)) (span : Span) : Action NodeId :=
  match form with
  | .name text => name text span
  | .typeReference text pointerDepth isArray => typeReference text pointerDepth isArray span
  | .variableReference => variableReference (partIn parts 0) span
  | .parameter => parameter (partIn parts 0) (partIn? parts 1) (partIn? parts 2) span
  | .function =>
      function (partIn parts 0) (partIn? parts 1) (partsIn parts 2) (partIn? parts 3) span
  | .funDirective exported => funDirective (partIn parts 0) exported span
  | .varDirective exported =>
      varDirective (partIn parts 0) (partIn? parts 1) (partIn? parts 2) exported span
  | .constDirective exported =>
      constDirective (partIn parts 0) (partIn? parts 1) (partIn parts 2) exported span
  | .typeDirective exported => typeDirective (partIn parts 0) (partIn parts 1) exported span
  | .typeBody => typeBody span
  | .literal value => literal value span
  | .call isOperator => call (partIn parts 0) (partsIn parts 1) isOperator span
  | .binary operator => binary (partIn parts 0) operator (partIn parts 1) span
  | .unary operator => unary operator (partIn parts 0) span
  | .complement => complement (partIn parts 0) span
  | .negation => negation (partIn parts 0) span
  | .conditionArm => conditionArm (partIn parts 0) (partIn parts 1) (partIn parts 2) span
  | .literalArm => literalArm (partIn parts 0) (partIn parts 1) span
  | .defaultArm => defaultArm (partIn parts 0) span
  | .matching => matching (partIn parts 0) (partsIn parts 1) span

/-- The same, with a note that the source has the node in parentheses. -/
def makeAt (form : Form) (parts : List (List NodeId)) (place : Place) : Action NodeId := do
  let id ← make form parts place.span
  if place.parenthesized then parenthesized id else pure id

/-- Whatever comes of it, it leaves a builder that comes after. -/
theorem proceeds_make (b : Builder) (form : Form) (parts : List (List NodeId)) (span : Span) :
    Proceeds b (make form parts span) := by
  cases form with
  | name text => exact proceeds_name b text span
  | typeReference text pointerDepth isArray =>
      exact proceeds_typeReference b text pointerDepth isArray span
  | variableReference => exact proceeds_variableReference b _ span
  | parameter => exact proceeds_parameter b _ _ _ span
  | function => exact proceeds_function b _ _ _ _ span
  | funDirective exported => exact proceeds_funDirective b _ exported span
  | varDirective exported => exact proceeds_varDirective b _ _ _ exported span
  | constDirective exported => exact proceeds_constDirective b _ _ _ exported span
  | typeDirective exported => exact proceeds_typeDirective b _ _ exported span
  | typeBody => exact proceeds_typeBody b span
  | literal value => exact proceeds_literal b value span
  | call isOperator => exact proceeds_call b _ _ isOperator span
  | binary operator => exact proceeds_binary b _ operator _ span
  | unary operator => exact proceeds_unary b operator _ span
  | complement => exact proceeds_complement b _ span
  | negation => exact proceeds_negation b _ span
  | conditionArm => exact proceeds_conditionArm b _ _ _ span
  | literalArm => exact proceeds_literalArm b _ _ span
  | defaultArm => exact proceeds_defaultArm b _ span
  | matching => exact proceeds_matching b _ _ span

theorem proceeds_makeAt (b : Builder) (form : Form) (parts : List (List NodeId)) (place : Place) :
    Proceeds b (makeAt form parts place) := by
  refine (proceeds_make b form parts place.span).bind fun {id c} _ _ => ?_
  cases place.parenthesized with
  | false => exact performs_pure True.intro
  | true => exact proceeds_parenthesized c id

/-! ### What a step does when nothing is in its way -/

variable {b c d : Builder} {accepts : Tag → Bool} {ids : List NodeId} {id : NodeId}
  {form : Form} {parts : List (List NodeId)} {span : Span} {place : Place}
  {shape : Shape}

/-- A slot that takes one part is checked. -/
theorem exists_expect (room : b.forest.size ≤ maxWord)
    (holds : Slot.Holds b.forest (.one accepts) ids) :
    ∃ slot, (∀ expected, expect expected accepts (ids.head?.getD NodeId.absent) b = .ok slot b)
      ∧ slot.entries = ids := by
  obtain ⟨id, rfl, hid⟩ := holds
  exact ⟨id, fun _ => expect_eq_ok_iff.2 ⟨rfl, rfl, hid⟩, if_pos (hid.isPresent room)⟩

/-- A slot that takes one part or none is checked. -/
theorem exists_expectOptional (room : b.forest.size ≤ maxWord)
    (holds : Slot.Holds b.forest (.optional accepts) ids) :
    ∃ slot, (∀ expected, expectOptional expected accepts ids.head? b = .ok slot b)
      ∧ slot.entries = ids := by
  rcases holds with rfl | ⟨id, rfl, hid⟩
  · exact ⟨NodeId.absent, fun _ => rfl, rfl⟩
  · exact ⟨id, fun _ => expect_eq_ok_iff.2 ⟨rfl, rfl, hid⟩, if_pos (hid.isPresent room)⟩

theorem intern_eq (b : Builder) (text : String) :
    intern text b
      = .ok (b.names.intern text).1 { b with names := (b.names.intern text).2 } := rfl

/-- A sequence that is not too long is kept as long as there is room. -/
theorem exists_storeList (b : Builder) (what : String) (short : ids.length ≤ maxListLength)
    (room : b.forest.lists.size + ids.length ≤ maxWord) :
    ∃ segment, storeList ids what b = .ok segment { b with forest := b.forest.keep ids }
      ∧ (b.forest.keep ids).list segment = ids := by
  obtain ⟨segment, hstored⟩ := b.forest.exists_storeList what short fun hids => by
    have hpos := List.length_pos_iff.2 hids
    omega
  obtain ⟨-, -, -, hlist⟩ := storeList_kept hstored
  exact ⟨segment, onForest_eq_ok_iff.2 ⟨_, hstored, rfl⟩, hlist⟩

/-- A constant with a value is checked like any other declaration. -/
theorem constDirective_of_isPresent {name value : NodeId} {type : Option NodeId} {exported : Bool}
    (present : value.isPresent = true) :
    constDirective name type value exported span = (do
      let name ← expectName name
      let type ← expectType? type
      let value ← expectExpression value
      insert (.constDirective name type value exported) span) := by
  unfold constDirective
  rw [present]
  rfl

/-! ### Making the node -/

/-- A builder can make a node over some parts: they are there, nobody owns them, and there is
room. -/
structure Ready (b : Builder) (form : Form) (parts : List (List NodeId)) : Prop where
  holds : List.Forall₂ (Slot.Holds b.forest) form.slots parts
  nodup : parts.flatten.Nodup
  free : ∀ part ∈ parts.flatten, ∃ node, b.forest.node? part = some node ∧ node.parent = none
  room : b.forest.size < maxWord
  store : b.forest.lists.size + (form.sequence parts).length ≤ maxWord
  /-- A function is open where one is needed. -/
  opened : form = .function ∨ form = .matching → b.frames ≠ []

theorem Ready.fits (ready : b.Ready form parts) : b.forest.size ≤ maxWord :=
  Nat.le_of_lt ready.room

/-- The node of a shape that says the form and the parts is made once the sequence is kept. -/
theorem Ready.insert_eq (ready : b.Ready form parts)
    (forest : d.forest = b.forest.keep (form.sequence parts))
    (view : d.forest.view d.names shape = some (form, parts))
    (contents : d.forest.checkContents shape span = .ok ()) :
    insert shape span d = .ok ⟨b.forest.size⟩ { d with forest := d.forest.add shape span none }
      ∧ (d.forest.add shape span none).node? ⟨b.forest.size⟩ = some (Node.fresh shape span none)
      ∧ b.forest.Makes (d.forest.add shape span none) d.names form parts ⟨span, false⟩ := by
  have hchildren : shape.children d.forest.lists = parts.flatten := (view_flatten view).symm
  -- keeping the sequence makes no node, so the rules see the parts as they were before
  have hsize : d.forest.size = b.forest.size := by rw [forest, size_keep]
  have admits : d.forest.Admits shape span := by
    refine ⟨by rw [hsize]; exact ready.room, by rw [hchildren]; exact ready.nodup,
      fun child hc => ?_, contents⟩
    obtain ⟨node, hnode, hparent⟩ := ready.free child (hchildren ▸ hc)
    refine ⟨node, ?_, Or.inl hparent⟩
    rw [forest, node?_keep]
    exact hnode
  have hnode : (d.forest.add shape span none).node? ⟨b.forest.size⟩
      = some (Node.fresh shape span none) := by
    rw [← hsize]
    exact node?_add_self admits.notMem_children
  refine ⟨?_, hnode, by rw [size_add, hsize], ⟨_, hnode, ?_, rfl, rfl⟩,
    fun {id node} hbefore => ?_, by rw [lists_add, forest, lists_keep]⟩
  · exact onForest_eq_ok_iff.2 ⟨_, insert_eq_ok_iff.2 ⟨admits, by rw [hsize], rfl⟩, rfl⟩
  · exact (view_congr (lists_add _ _ _ _)).trans view
  · have hkept : d.forest.node? id = some node := by
      rw [forest, node?_keep]
      exact hbefore
    rw [node?_add_of_lt (lt_size_of_node? hkept), hkept, Option.map_some, hchildren, hsize]

/-- From what a step over some parts has come to, the rest of it makes the node.  A function that
is made is open no more. -/
def Completes (b d : Builder) (action : Action NodeId) (form : Form) (parts : List (List NodeId))
    (place : Place) : Prop :=
  ∃ c, action d = .ok ⟨b.forest.size⟩ c ∧ b.forest.Makes c.forest c.names form parts place
    ∧ c.frames.length + (if form = .function then 1 else 0) = b.frames.length

theorem Completes.after {α : Type} {first : Action α} {next : α → Action NodeId} {answer : α}
    (h : first d = .ok answer c) (completes : b.Completes c (next answer) form parts place) :
    b.Completes d (first >>= next) form parts place := by
  obtain ⟨e, hmade, rest⟩ := completes
  exact ⟨e, (Step.bind_of_ok h).trans hmade, rest⟩

theorem Ready.completes_insert (ready : b.Ready form parts)
    (forest : d.forest = b.forest.keep (form.sequence parts))
    (view : d.forest.view d.names shape = some (form, parts))
    (contents : d.forest.checkContents shape span = .ok ())
    (frames : d.frames.length + (if form = .function then 1 else 0) = b.frames.length) :
    b.Completes d (insert shape span) form parts ⟨span, false⟩ := by
  obtain ⟨hmade, -, makes⟩ := ready.insert_eq forest view contents
  exact ⟨_, hmade, makes, frames⟩

/-- The node of a function is made and given its local variables. -/
theorem Ready.completes_insertFunction (ready : b.Ready .function parts)
    (forest : d.forest = b.forest.keep (Form.function.sequence parts))
    (view : d.forest.view d.names shape = some (.function, parts))
    (contents : d.forest.checkContents shape span = .ok ())
    (frames : d.frames.length + 1 = b.frames.length) (tag : shape.tag = .function) (count : Nat) :
    b.Completes d
      (do
        let id ← insert shape span
        onForest (decorate id (Node.reserveLocals count id))
        return id)
      .function parts ⟨span, false⟩ := by
  obtain ⟨hmade, hnode, makes⟩ := ready.insert_eq forest view contents
  -- what is recorded of a function is there from the start, so the rule cannot refuse
  obtain ⟨info, hreserved⟩ : ∃ info, (Node.fresh shape span none).reserveLocals count
      ⟨b.forest.size⟩ = .ok { Node.fresh shape span none with info := some info } := by
    refine ⟨_, Question.bind_eq_ok_iff.2 ⟨⟨Name.empty, []⟩, ?_, rfl⟩⟩
    unfold Node.requireInfo
    simp only [Node.fresh, tag, Tag.isFunction, if_true]
  refine .after hmade (.after (decorate_of_ok hnode hreserved) ⟨_, rfl, ?_, frames⟩)
  exact makes.replace hnode rfl rfl

/-- The node of a match is made, and a local variable is wanted for it. -/
theorem Ready.completes_insertMatching (ready : b.Ready .matching parts)
    (forest : d.forest = b.forest.keep (Form.matching.sequence parts))
    (view : d.forest.view d.names shape = some (.matching, parts))
    (contents : d.forest.checkContents shape span = .ok ()) (frames : d.frames = b.frames) :
    b.Completes d
      (do
        let id ← insert shape span
        countLocal
        return id)
      .matching parts ⟨span, false⟩ := by
  obtain ⟨hmade, -, makes⟩ := ready.insert_eq forest view contents
  obtain ⟨count, others, hframes⟩ := List.exists_cons_of_ne_nil (ready.opened (Or.inr rfl))
  refine .after hmade (.after (countLocal_eq (frames.trans hframes)) ⟨_, rfl, makes, ?_⟩)
  rw [hframes]
  rfl

/-! ### The step of each form

The parts are taken out of the slots and checked in the order of the step.  What is then put in the
forest says the form and the parts. -/

theorem Ready.completes_name {text : String} (ready : b.Ready (.name text) parts) :
    b.Completes b (make (.name text) parts span) (.name text) parts ⟨span, false⟩ := by
  rcases ready.holds with _ | _
  refine .after (intern_eq b text) (ready.completes_insert (keep_nil _).symm ?_ rfl rfl)
  rw [view, NameTable.text_intern]

theorem Ready.completes_typeReference {text : String} {pointerDepth : Nat} {isArray : Bool}
    (ready : b.Ready (.typeReference text pointerDepth isArray) parts) :
    b.Completes b (make (.typeReference text pointerDepth isArray) parts span)
      (.typeReference text pointerDepth isArray) parts ⟨span, false⟩ := by
  rcases ready.holds with _ | _
  refine .after (intern_eq b text) (ready.completes_insert (keep_nil _).symm ?_ rfl rfl)
  rw [view, NameTable.text_intern]

theorem Ready.completes_variableReference (ready : b.Ready .variableReference parts) :
    b.Completes b (make .variableReference parts span) .variableReference parts ⟨span, false⟩ := by
  rcases ready.holds with _ | ⟨htarget, _ | _⟩
  obtain ⟨target, htarget, rfl⟩ := exists_expect ready.fits htarget
  exact .after (htarget _) (ready.completes_insert (keep_nil _).symm rfl rfl rfl)

theorem Ready.completes_parameter (ready : b.Ready .parameter parts) :
    b.Completes b (make .parameter parts span) .parameter parts ⟨span, false⟩ := by
  rcases ready.holds with _ | ⟨hname, _ | ⟨htype, _ | ⟨hdefault, _ | _⟩⟩⟩
  obtain ⟨name, hname, rfl⟩ := exists_expect ready.fits hname
  obtain ⟨type, htype, rfl⟩ := exists_expectOptional ready.fits htype
  obtain ⟨default, hdefault, rfl⟩ := exists_expectOptional ready.fits hdefault
  exact .after (hname _) (.after (htype _) (.after (hdefault _)
    (ready.completes_insert (keep_nil _).symm rfl rfl rfl)))

theorem Ready.completes_function (ready : b.Ready .function parts) :
    b.Completes b (make .function parts span) .function parts ⟨span, false⟩ := by
  rcases ready.holds with _ | ⟨hname, _ | ⟨htype, _ | ⟨hparameters, _ | ⟨hbody, _ | _⟩⟩⟩⟩
  obtain ⟨count, frames, hframes⟩ := List.exists_cons_of_ne_nil (ready.opened (Or.inl rfl))
  obtain ⟨name, hname, rfl⟩ := exists_expect ready.fits hname
  obtain ⟨type, htype, rfl⟩ := exists_expectOptional ready.fits htype
  obtain ⟨body, hbody, rfl⟩ := exists_expectOptional ready.fits hbody
  -- the function is closed before its parameters are kept
  have hended := endFunction_eq hframes
  obtain ⟨segment, hstored, hlist⟩ :=
    exists_storeList { b with frames := frames } "parameters" hparameters.1 ready.store
  refine .after (hname _) (.after (htype _) (.after (expectAll_eq_ok_iff.2 ⟨rfl, hparameters.2⟩)
    (.after (hbody _) (.after hended (.after hstored ?_)))))
  refine ready.completes_insertFunction rfl ?_ rfl ?_ rfl count
  · rw [view, hlist]
  · rw [hframes, List.length_cons]

theorem Ready.completes_funDirective {exported : Bool}
    (ready : b.Ready (.funDirective exported) parts) :
    b.Completes b (make (.funDirective exported) parts span)
      (.funDirective exported) parts ⟨span, false⟩ := by
  rcases ready.holds with _ | ⟨hfunction, _ | _⟩
  obtain ⟨function, hfunction, rfl⟩ := exists_expect ready.fits hfunction
  exact .after (hfunction _) (ready.completes_insert (keep_nil _).symm rfl rfl rfl)

theorem Ready.completes_varDirective {exported : Bool}
    (ready : b.Ready (.varDirective exported) parts) :
    b.Completes b (make (.varDirective exported) parts span)
      (.varDirective exported) parts ⟨span, false⟩ := by
  rcases ready.holds with _ | ⟨hname, _ | ⟨htype, _ | ⟨hvalue, _ | _⟩⟩⟩
  obtain ⟨name, hname, rfl⟩ := exists_expect ready.fits hname
  obtain ⟨type, htype, rfl⟩ := exists_expectOptional ready.fits htype
  obtain ⟨value, hvalue, rfl⟩ := exists_expectOptional ready.fits hvalue
  exact .after (hname _) (.after (htype _) (.after (hvalue _)
    (ready.completes_insert (keep_nil _).symm rfl rfl rfl)))

theorem Ready.completes_constDirective {exported : Bool}
    (ready : b.Ready (.constDirective exported) parts) :
    b.Completes b (make (.constDirective exported) parts span)
      (.constDirective exported) parts ⟨span, false⟩ := by
  rcases ready.holds with _ | ⟨hname, _ | ⟨htype, _ | ⟨hvalue, _ | _⟩⟩⟩
  obtain ⟨name, hname, rfl⟩ := exists_expect ready.fits hname
  obtain ⟨type, htype, rfl⟩ := exists_expectOptional ready.fits htype
  obtain ⟨value, rfl, hvalue⟩ := hvalue
  have hpresent := hvalue.isPresent ready.fits
  have hentries : value.entries = [value] := if_pos hpresent
  -- whether there is a value is asked first, and the rule of the node asks it again
  change b.Completes b (constDirective _ _ value exported span) _ _ _
  rw [constDirective_of_isPresent hpresent]
  refine .after (hname _) (.after (htype _) (.after (expect_eq_ok_iff.2 ⟨rfl, rfl, hvalue⟩) ?_))
  refine ready.completes_insert (keep_nil _).symm ?_ (if_pos hpresent) rfl
  rw [view, hentries]

theorem Ready.completes_typeDirective {exported : Bool}
    (ready : b.Ready (.typeDirective exported) parts) :
    b.Completes b (make (.typeDirective exported) parts span)
      (.typeDirective exported) parts ⟨span, false⟩ := by
  rcases ready.holds with _ | ⟨hname, _ | ⟨hbody, _ | _⟩⟩
  obtain ⟨name, hname, rfl⟩ := exists_expect ready.fits hname
  obtain ⟨body, hbody, rfl⟩ := exists_expect ready.fits hbody
  exact .after (hname _) (.after (hbody _) (ready.completes_insert (keep_nil _).symm rfl rfl rfl))

theorem Ready.completes_typeBody (ready : b.Ready .typeBody parts) :
    b.Completes b (make .typeBody parts span) .typeBody parts ⟨span, false⟩ := by
  rcases ready.holds with _ | _
  exact ready.completes_insert (keep_nil _).symm rfl rfl rfl

theorem Ready.completes_literal {value : Literal} (ready : b.Ready (.literal value) parts) :
    b.Completes b (make (.literal value) parts span) (.literal value) parts ⟨span, false⟩ := by
  rcases ready.holds with _ | _
  exact ready.completes_insert (keep_nil _).symm rfl rfl rfl

theorem Ready.completes_call {isOperator : Bool} (ready : b.Ready (.call isOperator) parts) :
    b.Completes b (make (.call isOperator) parts span) (.call isOperator) parts ⟨span, false⟩ := by
  rcases ready.holds with _ | ⟨hcallee, _ | ⟨harguments, _ | _⟩⟩
  obtain ⟨callee, hcallee, rfl⟩ := exists_expect ready.fits hcallee
  obtain ⟨segment, hstored, hlist⟩ := exists_storeList b "arguments" harguments.1 ready.store
  refine .after (hcallee _) (.after (expectAll_eq_ok_iff.2 ⟨rfl, harguments.2⟩)
    (.after hstored ?_))
  refine ready.completes_insert rfl ?_ rfl rfl
  rw [view, hlist]

theorem Ready.completes_binary {operator : String} (ready : b.Ready (.binary operator) parts) :
    b.Completes b (make (.binary operator) parts span) (.binary operator) parts ⟨span, false⟩ := by
  rcases ready.holds with _ | ⟨hleft, _ | ⟨hright, _ | _⟩⟩
  obtain ⟨left, hleft, rfl⟩ := exists_expect ready.fits hleft
  obtain ⟨right, hright, rfl⟩ := exists_expect ready.fits hright
  refine .after (hleft _) (.after (hright _) (.after (intern_eq b operator) ?_))
  refine ready.completes_insert (keep_nil _).symm ?_ rfl rfl
  rw [view, NameTable.text_intern]

theorem Ready.completes_unary {operator : String} (ready : b.Ready (.unary operator) parts) :
    b.Completes b (make (.unary operator) parts span) (.unary operator) parts ⟨span, false⟩ := by
  rcases ready.holds with _ | ⟨hoperand, _ | _⟩
  obtain ⟨operand, hoperand, rfl⟩ := exists_expect ready.fits hoperand
  refine .after (hoperand _) (.after (intern_eq b operator) ?_)
  refine ready.completes_insert (keep_nil _).symm ?_ rfl rfl
  rw [view, NameTable.text_intern]

theorem Ready.completes_complement (ready : b.Ready .complement parts) :
    b.Completes b (make .complement parts span) .complement parts ⟨span, false⟩ := by
  rcases ready.holds with _ | ⟨hoperand, _ | _⟩
  obtain ⟨operand, hoperand, rfl⟩ := exists_expect ready.fits hoperand
  exact .after (hoperand _) (ready.completes_insert (keep_nil _).symm rfl rfl rfl)

theorem Ready.completes_negation (ready : b.Ready .negation parts) :
    b.Completes b (make .negation parts span) .negation parts ⟨span, false⟩ := by
  rcases ready.holds with _ | ⟨hoperand, _ | _⟩
  obtain ⟨operand, hoperand, rfl⟩ := exists_expect ready.fits hoperand
  exact .after (hoperand _) (ready.completes_insert (keep_nil _).symm rfl rfl rfl)

theorem Ready.completes_conditionArm (ready : b.Ready .conditionArm parts) :
    b.Completes b (make .conditionArm parts span) .conditionArm parts ⟨span, false⟩ := by
  rcases ready.holds with _ | ⟨hname, _ | ⟨hcondition, _ | ⟨hbody, _ | _⟩⟩⟩
  obtain ⟨name, hname, rfl⟩ := exists_expect ready.fits hname
  obtain ⟨condition, hcondition, rfl⟩ := exists_expect ready.fits hcondition
  obtain ⟨body, hbody, rfl⟩ := exists_expect ready.fits hbody
  exact .after (hname _) (.after (hcondition _) (.after (hbody _)
    (ready.completes_insert (keep_nil _).symm rfl rfl rfl)))

theorem Ready.completes_literalArm (ready : b.Ready .literalArm parts) :
    b.Completes b (make .literalArm parts span) .literalArm parts ⟨span, false⟩ := by
  rcases ready.holds with _ | ⟨hvalue, _ | ⟨hbody, _ | _⟩⟩
  obtain ⟨value, hvalue, rfl⟩ := exists_expect ready.fits hvalue
  obtain ⟨body, hbody, rfl⟩ := exists_expect ready.fits hbody
  exact .after (hvalue _) (.after (hbody _) (ready.completes_insert (keep_nil _).symm rfl rfl rfl))

theorem Ready.completes_defaultArm (ready : b.Ready .defaultArm parts) :
    b.Completes b (make .defaultArm parts span) .defaultArm parts ⟨span, false⟩ := by
  rcases ready.holds with _ | ⟨hbody, _ | _⟩
  obtain ⟨body, hbody, rfl⟩ := exists_expect ready.fits hbody
  exact .after (hbody _) (ready.completes_insert (keep_nil _).symm rfl rfl rfl)

theorem Ready.completes_matching (ready : b.Ready .matching parts) :
    b.Completes b (make .matching parts span) .matching parts ⟨span, false⟩ := by
  rcases ready.holds with _ | ⟨hscrutinee, _ | ⟨harms, _ | _⟩⟩
  obtain ⟨count, frames, hframes⟩ := List.exists_cons_of_ne_nil (ready.opened (Or.inr rfl))
  obtain ⟨scrutinee, hscrutinee, rfl⟩ := exists_expect ready.fits hscrutinee
  obtain ⟨segment, hstored, hlist⟩ := exists_storeList b "match arms" harms.1 ready.store
  have hnext := nextLocal_eq hframes
  refine .after (hscrutinee _) (.after (expectArms_eq_ok_iff.2 ⟨rfl, harms.2⟩)
    (.after hnext (.after hstored ?_)))
  refine ready.completes_insertMatching rfl ?_ rfl rfl
  rw [view, hlist]

/-- **The node of a form is made.** -/
theorem Ready.completes (ready : b.Ready form parts) (span : Span) :
    b.Completes b (make form parts span) form parts ⟨span, false⟩ := by
  cases form with
  | name text => exact ready.completes_name
  | typeReference text pointerDepth isArray => exact ready.completes_typeReference
  | variableReference => exact ready.completes_variableReference
  | parameter => exact ready.completes_parameter
  | function => exact ready.completes_function
  | funDirective exported => exact ready.completes_funDirective
  | varDirective exported => exact ready.completes_varDirective
  | constDirective exported => exact ready.completes_constDirective
  | typeDirective exported => exact ready.completes_typeDirective
  | typeBody => exact ready.completes_typeBody
  | literal value => exact ready.completes_literal
  | call isOperator => exact ready.completes_call
  | binary operator => exact ready.completes_binary
  | unary operator => exact ready.completes_unary
  | complement => exact ready.completes_complement
  | negation => exact ready.completes_negation
  | conditionArm => exact ready.completes_conditionArm
  | literalArm => exact ready.completes_literalArm
  | defaultArm => exact ready.completes_defaultArm
  | matching => exact ready.completes_matching

/-- The node of a form is made and put in its parentheses. -/
theorem Ready.completes_makeAt (ready : b.Ready form parts) (place : Place) :
    b.Completes b (makeAt form parts place) form parts place := by
  obtain ⟨c, hmade, makes, hframes⟩ := ready.completes place.span
  obtain ⟨span, parenthesized⟩ := place
  refine .after hmade ?_
  cases parenthesized with
  | false => exact ⟨c, rfl, makes, hframes⟩
  | true =>
      obtain ⟨node, hnode, -, hplace, -⟩ := makes.made
      obtain rfl : node.span = span := congrArg Place.span hplace
      have hset : node.setParenthesized = .ok { node with parenthesized := true } := rfl
      refine .after (decorate_of_ok hnode hset) ⟨_, rfl, ?_, hframes⟩
      exact makes.replace hnode rfl rfl

end Builder

end SyntaxForest
