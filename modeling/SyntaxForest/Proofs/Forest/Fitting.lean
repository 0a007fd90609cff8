/-
**The slots of a node.**

Each slot of a node wants a node of some category.  A fitting node has what it wants in all its
slots, and its names were given out.  The sort of a node never changes, so nodes that fit go on
fitting, and whatever is done to a forest from outside, as long as new nodes fit, all nodes do.

Main definitions:

* `Forest.Holds`, `Forest.HoldsOptional` — a slot that holds a node of a category;
* `Shape.Fits`, `Shape.names`, `Forest.Fitting` — a shape whose slots hold what they want, its
  names, and a shape that may be made;
* `Forest.Fitted` — a forest all of whose nodes fit;
* `Forest.Continues` — a forest that comes after another: sorts are kept, the store goes on;
* `Forest.Declares` — a declaration of a function with a name.

Main results:

* `Shape.Fits.continues` — a shape that fits goes on fitting;
* `Forest.Fitted.acts` — **as long as new nodes fit, all nodes do**;
* `Forest.Fitted.declares` — **a declaration of a function declares a name that was given out.**
-/

import SyntaxForest.Proofs.Forest.Grouping
import SyntaxForest.Proofs.Syntax.Names

set_option relaxedAutoImplicit false
set_option autoImplicit false

namespace SyntaxForest

/-! ### Slots -/

namespace Forest

/-- A slot holds a node of a category. -/
def Holds (f : Forest) (accepts : Tag → Bool) (slot : NodeId) : Prop :=
  ∃ tag, f.tag? slot = some tag ∧ accepts tag = true

/-- A slot is left out or holds a node of a category. -/
def HoldsOptional (f : Forest) (accepts : Tag → Bool) (slot : NodeId) : Prop :=
  slot = NodeId.absent ∨ f.Holds accepts slot

/-- A sequence holds nodes of a category only. -/
def HoldsAll (f : Forest) (accepts : Tag → Bool) (slots : List NodeId) : Prop :=
  ∀ slot ∈ slots, f.Holds accepts slot

end Forest

/-- The slots of a shape hold what they want. -/
def Shape.Fits (f : Forest) : Shape → Prop
  | .document directives => f.HoldsAll Tag.isDirective (f.list directives)
  | .nameIdentifier _ => True
  | .typeReference _ _ _ => True
  | .variableReference target => f.Holds (· = .nameIdentifier) target
  | .parameter name type default =>
      f.Holds (· = .nameIdentifier) name ∧ f.HoldsOptional (· = .typeReference) type
        ∧ f.HoldsOptional Tag.isExpression default
  | .function name returnType parameters body =>
      f.Holds (· = .nameIdentifier) name ∧ f.HoldsOptional (· = .typeReference) returnType
        ∧ f.HoldsAll (· = .parameter) (f.list parameters) ∧ f.HoldsOptional Tag.isExpression body
  | .specialized base _ => f.Holds (· = .function) base
  | .funDirective declared _ => f.Holds (· = .function) declared
  | .overloads _ members => f.HoldsAll (· = .funDirective) (f.list members)
  | .varDirective name type value _ =>
      f.Holds (· = .nameIdentifier) name ∧ f.HoldsOptional (· = .typeReference) type
        ∧ f.HoldsOptional Tag.isExpression value
  | .constDirective name type value _ =>
      f.Holds (· = .nameIdentifier) name ∧ f.HoldsOptional (· = .typeReference) type
        ∧ f.Holds Tag.isExpression value
  | .typeDirective name valueType _ =>
      f.Holds (· = .nameIdentifier) name ∧ f.Holds (· = .typeBody) valueType
  | .typeBody => True
  | .literal _ => True
  | .call callee arguments _ =>
      f.Holds Tag.isExpression callee ∧ f.HoldsAll Tag.isExpression (f.list arguments)
  | .binary left _ right => f.Holds Tag.isExpression left ∧ f.Holds Tag.isExpression right
  | .unary _ operand => f.Holds Tag.isExpression operand
  | .complement operand => f.Holds Tag.isExpression operand
  | .negation operand => f.Holds Tag.isExpression operand
  | .conditionArm name condition body =>
      f.Holds (· = .nameIdentifier) name ∧ f.Holds Tag.isExpression condition
        ∧ f.Holds Tag.isExpression body
  | .literalArm value body => f.Holds Tag.isLiteral value ∧ f.Holds Tag.isExpression body
  | .defaultArm body => f.Holds Tag.isExpression body
  | .matching scrutinee arms _ =>
      -- only the last arm may always be taken
      f.Holds Tag.isExpression scrutinee ∧ f.HoldsAll Tag.isArm (f.list arms)
        ∧ f.HoldsAll (· ≠ .defaultArm) (f.list arms).dropLast

def Shape.names : Shape → List Name
  | .nameIdentifier name => [name]
  | .typeReference name _ _ => [name]
  | .overloads name _ => [name]
  | .binary _ operator _ => [operator]
  | .unary operator _ => [operator]
  | _ => []

namespace Forest

/-- A shape that fits into a forest, over names that were given out. -/
structure Fitting (names : NameTable) (f : Forest) (shape : Shape) : Prop where
  stored : shape.Stored f.lists
  short : ∀ s ∈ shape.segments, s.length ≤ maxListLength
  /-- Its slots hold what they want. -/
  fits : shape.Fits f
  /-- Its names were given out. -/
  issued : ∀ name ∈ shape.names, names.Issued name

/-- All nodes fit, and there are not too many. -/
structure Fitted (names : NameTable) (f : Forest) : Prop where
  node : ∀ {id node}, f.node? id = some node → f.Fitting names node.shape
  /-- The number that names no node has none. -/
  room : f.size ≤ maxWord

variable {names names' : NameTable} {f g h : Forest} {id slot : NodeId} {node : Node} {tag : Tag}
  {shape : Shape} {accepts : Tag → Bool}

theorem tag?_of_node? (h : f.node? id = some node) : f.tag? id = some node.shape.tag := by
  rw [tag?, h, Option.map_some]

theorem tag?_eq_some_iff :
    f.tag? id = some tag ↔ ∃ node, f.node? id = some node ∧ node.shape.tag = tag :=
  Option.map_eq_some_iff

/-- A slot that holds a node is not left out. -/
theorem Holds.isPresent (held : f.Holds accepts slot) (room : f.size ≤ maxWord) :
    slot.isPresent = true := by
  obtain ⟨tag, htag, -⟩ := held
  obtain ⟨node, hnode, -⟩ := tag?_eq_some_iff.1 htag
  have hlt := Nat.lt_of_lt_of_le (lt_size_of_node? hnode) room
  -- the number that names no node is the largest word, and there is no room for so many nodes
  refine decide_eq_true fun h => ?_
  rw [h] at hlt
  exact absurd hlt (by decide)

/-! ### Continuing -/

/-- A forest that comes after another one: nodes keep their sorts, and the store goes on. -/
structure Continues (f g : Forest) : Prop where
  tag? : ∀ {id tag}, f.tag? id = some tag → g.tag? id = some tag
  lists : ∃ more : List NodeId, g.lists = f.lists ++ more

namespace Continues

theorem refl (f : Forest) : f.Continues f := ⟨fun h => h, [], by simp⟩

theorem trans (first : f.Continues g) (second : g.Continues h) : f.Continues h where
  tag? ht := second.tag? (first.tag? ht)
  lists := by
    obtain ⟨more, hmore⟩ := first.lists
    obtain ⟨more', hmore'⟩ := second.lists
    refine ⟨more ++ more', ?_⟩
    rw [hmore', hmore, grown_grown]

theorem stored (continues : f.Continues g) (stored : shape.Stored f.lists) :
    shape.Stored g.lists := by
  obtain ⟨more, hmore⟩ := continues.lists
  rw [hmore]
  exact stored.append more

theorem list_eq (continues : f.Continues g) {s : Segment} (inside : s.Inside f.lists) :
    g.list s = f.list s := by
  obtain ⟨more, hmore⟩ := continues.lists
  rw [list, hmore]
  exact Segment.entries_append inside more

end Continues

theorem Holds.continues (holds : f.Holds accepts slot) (continues : f.Continues g) :
    g.Holds accepts slot := by
  obtain ⟨tag, htag, haccepts⟩ := holds
  exact ⟨tag, continues.tag? htag, haccepts⟩

theorem HoldsOptional.continues (holds : f.HoldsOptional accepts slot)
    (continues : f.Continues g) : g.HoldsOptional accepts slot :=
  holds.imp_right fun h => h.continues continues

theorem HoldsAll.continues {slots : List NodeId} (holds : f.HoldsAll accepts slots)
    (continues : f.Continues g) : g.HoldsAll accepts slots :=
  fun slot hs => (holds slot hs).continues continues

theorem HoldsAll.segment {s : Segment} (holds : f.HoldsAll accepts (f.list s))
    (inside : s.Inside f.lists) (continues : f.Continues g) :
    g.HoldsAll accepts (g.list s) := by
  rw [continues.list_eq inside]
  exact holds.continues continues

end Forest

/-- **A shape that fits goes on fitting.** -/
theorem Shape.Fits.continues {f g : Forest} {shape : Shape} (fits : shape.Fits f)
    (stored : shape.Stored f.lists) (continues : f.Continues g) : shape.Fits g := by
  cases shape with
  | document directives => exact fits.segment (stored _ List.mem_cons_self) continues
  | nameIdentifier name => exact True.intro
  | typeReference name pointerDepth isArray => exact True.intro
  | variableReference target => exact Forest.Holds.continues fits continues
  | parameter name type default =>
      obtain ⟨hname, htype, hdefault⟩ := fits
      exact ⟨hname.continues continues, htype.continues continues, hdefault.continues continues⟩
  | function name returnType parameters body =>
      obtain ⟨hname, htype, hparameters, hbody⟩ := fits
      exact ⟨hname.continues continues, htype.continues continues,
        hparameters.segment (stored _ List.mem_cons_self) continues, hbody.continues continues⟩
  | specialized base closure => exact Forest.Holds.continues fits continues
  | funDirective declared exported => exact Forest.Holds.continues fits continues
  | overloads name members => exact fits.segment (stored _ List.mem_cons_self) continues
  | varDirective name type value exported =>
      obtain ⟨hname, htype, hvalue⟩ := fits
      exact ⟨hname.continues continues, htype.continues continues, hvalue.continues continues⟩
  | constDirective name type value exported =>
      obtain ⟨hname, htype, hvalue⟩ := fits
      exact ⟨hname.continues continues, htype.continues continues, hvalue.continues continues⟩
  | typeDirective name valueType exported =>
      obtain ⟨hname, htype⟩ := fits
      exact ⟨hname.continues continues, htype.continues continues⟩
  | typeBody => exact True.intro
  | literal value => exact True.intro
  | call callee arguments isOperator =>
      obtain ⟨hcallee, harguments⟩ := fits
      exact ⟨hcallee.continues continues,
        harguments.segment (stored _ List.mem_cons_self) continues⟩
  | binary left operator right =>
      obtain ⟨hleft, hright⟩ := fits
      exact ⟨hleft.continues continues, hright.continues continues⟩
  | unary operator operand => exact Forest.Holds.continues fits continues
  | complement operand => exact Forest.Holds.continues fits continues
  | negation operand => exact Forest.Holds.continues fits continues
  | conditionArm name condition body =>
      obtain ⟨hname, hcondition, hbody⟩ := fits
      exact ⟨hname.continues continues, hcondition.continues continues, hbody.continues continues⟩
  | literalArm value body =>
      obtain ⟨hvalue, hbody⟩ := fits
      exact ⟨hvalue.continues continues, hbody.continues continues⟩
  | defaultArm body => exact Forest.Holds.continues fits continues
  | matching scrutinee arms slot =>
      obtain ⟨hscrutinee, harms, hlast⟩ := fits
      -- which arm is the last depends on the list, and that is what it was
      have hinside : arms.Inside f.lists := stored _ List.mem_cons_self
      refine ⟨hscrutinee.continues continues, harms.segment hinside continues, ?_⟩
      rw [continues.list_eq hinside]
      exact hlast.continues continues

namespace Forest

variable {names names' : NameTable} {f g h : Forest} {id slot : NodeId} {node : Node} {tag : Tag}
  {shape : Shape}

theorem Fitting.continues (fitting : f.Fitting names shape) (continues : f.Continues g) :
    g.Fitting names shape where
  stored := continues.stored fitting.stored
  short := fitting.short
  fits := fitting.fits.continues fitting.stored continues
  issued := fitting.issued

/-- A shape without sequences fits if its slots hold what they want. -/
theorem fitting_of_slots {names : NameTable} {f : Forest} {shape : Shape}
    (segments : shape.segments = []) (issued : ∀ name ∈ shape.names, names.Issued name)
    (fits : shape.Fits f) : f.Fitting names shape where
  stored s hs := by
    rw [segments] at hs
    cases hs
  short s hs := by
    rw [segments] at hs
    cases hs
  fits := fits
  issued := issued

/-- A shape with one sequence fits if that is kept and its slots hold what they want. -/
theorem fitting_of_segment {segment : Segment}
    (segments : shape.segments = [segment]) (inside : segment.Inside f.lists)
    (short : segment.length ≤ maxListLength) (issued : ∀ name ∈ shape.names, names.Issued name)
    (fits : shape.Fits f) : f.Fitting names shape where
  stored s hs := by
    rw [segments] at hs
    rw [List.mem_singleton.1 hs]
    exact inside
  short s hs := by
    rw [segments] at hs
    rw [List.mem_singleton.1 hs]
    exact short
  fits := fits
  issued := issued

/-- The members of a group that is made are declarations of functions. -/
theorem fitting_overloads {name : Name} {members : List NodeId}
    {span : Span} (issued : names.Issued name) (short : members.length ≤ maxListLength)
    (admits : (f.keep members).Admits (.overloads name ⟨f.lists.size, members.length⟩) span) :
    (f.keep members).Fitting names (.overloads name ⟨f.lists.size, members.length⟩) := by
  refine fitting_of_segment rfl (Segment.inside_kept _ _) short (fun other ho => ?_) ?_
  · rw [List.mem_singleton.1 ho]
    exact issued
  · have hlist : (f.keep members).list ⟨f.lists.size, members.length⟩ = members :=
      Segment.entries_kept _ _
    intro member hm
    rw [hlist] at hm
    obtain ⟨-, -, hnames⟩ := admits.members
    obtain ⟨node, declared, exported, hnode, hshape⟩ :=
      funDirective_of_declaredName (hnames member hm)
    refine ⟨.funDirective, ?_, rfl⟩
    rw [tag?_of_node? hnode, hshape]
    rfl

/-- Decorations do not matter to what fits. -/
theorem Fitting.redecorated {old new : Node} (fitting : f.Fitting names old.shape)
    (redecorated : old.Redecorated new) : f.Fitting names new.shape := by
  rcases redecorated.shape with hshape | ⟨before, after, -, hafter, -⟩
  · rw [hshape]
    exact fitting
  · rw [hafter]
    exact ⟨fun s hs => (nomatch hs), fun s hs => (nomatch hs), True.intro,
      fun name hn => (nomatch hn)⟩

/-- More names may have been given out. -/
theorem Fitting.extends (fitting : f.Fitting names shape) (ext : names.Extends names') :
    f.Fitting names' shape where
  stored := fitting.stored
  short := fitting.short
  fits := fitting.fits
  issued name hn := ext.issued (fitting.issued name hn)

theorem Fitted.extends (fitted : f.Fitted names) (ext : names.Extends names') :
    f.Fitted names' :=
  ⟨fun hnode => (fitted.node hnode).extends ext, fitted.room⟩

/-! ### Acts continue a forest -/

theorem continues_keep (f : Forest) (ids : List NodeId) : f.Continues (f.keep ids) :=
  ⟨fun h => h, ids, rfl⟩

theorem continues_add {span : Span} (f : Forest) (shape : Shape) (donor : Option NodeId) :
    f.Continues (f.add shape span donor) where
  tag? htag := by
    obtain ⟨node, hnode, rfl⟩ := tag?_eq_some_iff.1 htag
    obtain ⟨later, hlater, hshape⟩ := exists_node?_add hnode
    rw [tag?_of_node? hlater, hshape]
  lists := ⟨[], by simp⟩

theorem continues_replace {old new : Node} (here : f.node? id = some old)
    (redecorated : old.Redecorated new) : f.Continues (f.replace id new) where
  tag? {other tag} htag := by
    by_cases ho : other = id
    · subst ho
      rw [tag?_of_node? here] at htag
      rw [tag?_of_node? (node?_replace_self here), redecorated.tag]
      exact htag
    · rw [tag?, node?_replace_of_ne ho]
      exact htag
  lists := ⟨[], by simp⟩

variable {allowed : Forest → Shape → Prop}

theorem Act.continues (act : Act allowed f g) : f.Continues g := by
  cases act with
  | keep ids => exact continues_keep f ids
  | add admits _ _ => exact continues_add f _ _
  | decorate here redecorated => exact continues_replace here redecorated

theorem Acts.continues (acts : Acts allowed f g) : f.Continues g := by
  induction acts with
  | refl => exact Continues.refl f
  | tail _ act ih => exact ih.trans act.continues

/-- **As long as new nodes fit where all nodes do, all nodes go on fitting.** -/
theorem Fitted.acts (fitted : f.Fitted names)
    (acts : Acts (fun f shape => f.Fitted names → f.Fitting names shape) f g) :
    g.Fitted names := by
  refine acts.preserves ?_ fitted
  intro f g act fitted
  have continues := act.continues
  cases act with
  | keep ids => exact ⟨fun hnode => (fitted.node hnode).continues continues, fitted.room⟩
  | add admits fitting _ =>
      refine ⟨fun {id node} hnode => ?_, ?_⟩
      · rcases admits.node?_add_cases hnode with ⟨old, hold, rfl⟩ | ⟨rfl, rfl⟩
        · rw [adopted_shape]
          exact (fitted.node hold).continues continues
        · exact (fitting fitted).continues continues
      · rw [size_add]
        exact admits.room
  | @decorate id old new here redecorated =>
      refine ⟨fun {other node} hnode => ?_, ?_⟩
      · refine Fitting.continues ?_ continues
        by_cases ho : other = id
        · subst ho
          rw [node?_replace_self here] at hnode
          cases hnode
          exact (fitted.node here).redecorated redecorated
        · rw [node?_replace_of_ne ho] at hnode
          exact fitted.node hnode
      · rw [size_replace]
        exact fitted.room

/-! ### Declared names -/

theorem eq_function_of_tag (h : shape.tag = .function) :
    ∃ name returnType parameters body, shape = .function name returnType parameters body := by
  cases shape with
  | function name returnType parameters body => exact ⟨_, _, _, _, rfl⟩
  | literal value => cases value <;> cases h
  | _ => cases h

/-- A function seen through a closure keeps the rule of its sort exactly when its base is a plain
function. -/
theorem checkContents_specialized_iff {base : NodeId} {closure : ClosureId} {span : Span} :
    f.checkContents (.specialized base closure) span = .ok () ↔ f.tag? base = some .function := by
  rw [checkContents, tag?_eq_some_iff]
  constructor
  · intro h
    split at h
    · cases h
    · next node hnode =>
        refine ⟨node, require_eq_ok_iff.1 hnode, ?_⟩
        split at h
        · next hshape => rw [hshape]; rfl
        · cases h
        · cases h
  · rintro ⟨node, hnode, htag⟩
    obtain ⟨name, returnType, parameters, body, hshape⟩ := eq_function_of_tag htag
    simp only [require_eq_ok_iff.2 hnode, hshape]

theorem eq_funDirective_of_tag (h : shape.tag = .funDirective) :
    ∃ declared exported, shape = .funDirective declared exported := by
  cases shape with
  | funDirective declared exported => exact ⟨_, _, rfl⟩
  | literal value => cases value <;> cases h
  | _ => cases h

theorem eq_nameIdentifier_of_tag (h : shape.tag = .nameIdentifier) :
    ∃ name, shape = .nameIdentifier name := by
  cases shape with
  | nameIdentifier name => exact ⟨_, rfl⟩
  | literal value => cases value <;> cases h
  | _ => cases h

theorem Holds.exists_node (holds : f.Holds (· = tag) slot) :
    ∃ node, f.node? slot = some node ∧ node.shape.tag = tag := by
  obtain ⟨found, hfound, haccepts⟩ := holds
  rw [of_decide_eq_true haccepts] at hfound
  exact tag?_eq_some_iff.1 hfound

def shape? (f : Forest) (id : NodeId) : Option Shape := (f.node? id).map (·.shape)

theorem shape?_of_node? (h : f.node? id = some node) : f.shape? id = some node.shape := by
  rw [shape?, h, Option.map_some]

theorem shape?_eq_some_iff :
    f.shape? id = some shape ↔ ∃ node, f.node? id = some node ∧ node.shape = shape :=
  Option.map_eq_some_iff

/-- A declaration of a plain function whose identifier holds a name. -/
def Declares (f : Forest) (id : NodeId) (name : Name) : Prop :=
  ∃ declared exported identifier returnType parameters body,
    f.shape? id = some (.funDirective declared exported)
      ∧ f.shape? declared = some (.function identifier returnType parameters body)
      ∧ f.shape? identifier = some (.nameIdentifier name)

/-- The name is found on the way from the declaration to the identifier. -/
theorem Declares.declaredName {name : Name} (declares : f.Declares id name) :
    f.declaredName id = .ok name := by
  obtain ⟨declared, exported, identifier, returnType, parameters, body, hdirective, hfunction,
    hidentifier⟩ := declares
  obtain ⟨directive, hnode, hshape⟩ := shape?_eq_some_iff.1 hdirective
  obtain ⟨function, hfunction, hparts⟩ := shape?_eq_some_iff.1 hfunction
  obtain ⟨holder, hholder, hname⟩ := shape?_eq_some_iff.1 hidentifier
  refine Question.bind_eq_ok_iff.2 ⟨declared, ?_, Question.bind_eq_ok_iff.2
    ⟨_, functionParts_of_function hfunction hparts, ?_⟩⟩
  · refine Question.bind_eq_ok_iff.2 ⟨directive, require_eq_ok_iff.2 hnode, ?_⟩
    rw [hshape]
  · refine Question.bind_eq_ok_iff.2 ⟨holder, require_eq_ok_iff.2 hholder, ?_⟩
    rw [hname]

theorem Declares.tag? {name : Name} (declares : f.Declares id name) :
    f.tag? id = some .funDirective := by
  obtain ⟨declared, exported, -, -, -, -, hdirective, -⟩ := declares
  obtain ⟨directive, hnode, hshape⟩ := shape?_eq_some_iff.1 hdirective
  rw [tag?_of_node? hnode, hshape]
  rfl

/-- **A declaration of a function declares a name that was given out.** -/
theorem Fitted.declares (fitted : f.Fitted names) (h : f.tag? id = some .funDirective) :
    ∃ name, f.Declares id name ∧ names.Issued name := by
  obtain ⟨directive, hdirective, htag⟩ := tag?_eq_some_iff.1 h
  obtain ⟨declared, exported, hshape⟩ := eq_funDirective_of_tag htag
  have hdeclared := (fitted.node hdirective).fits
  rw [hshape] at hdeclared
  obtain ⟨function, hfunction, htag⟩ := Holds.exists_node hdeclared
  obtain ⟨identifier, returnType, parameters, body, hparts⟩ := eq_function_of_tag htag
  have hidentifier := (fitted.node hfunction).fits
  rw [hparts] at hidentifier
  obtain ⟨holder, hholder, htag⟩ := Holds.exists_node hidentifier.1
  obtain ⟨name, hname⟩ := eq_nameIdentifier_of_tag htag
  have hissued : name ∈ holder.shape.names := by
    rw [hname]
    exact List.mem_cons_self
  exact ⟨name, ⟨declared, exported, identifier, returnType, parameters, body,
    shape?_eq_some_iff.2 ⟨_, hdirective, hshape⟩, shape?_eq_some_iff.2 ⟨_, hfunction, hparts⟩,
    shape?_eq_some_iff.2 ⟨_, hholder, hname⟩⟩, (fitted.node hholder).issued name hissued⟩

/-- The name of a group that is made was given out. -/
theorem Fitted.issued_of_members {members : List NodeId} {name : Name} {span : Span}
    (fitted : (f.keep members).Fitted names)
    (admits : (f.keep members).Admits (.overloads name ⟨f.lists.size, members.length⟩) span) :
    names.Issued name := by
  obtain ⟨first, rest, rfl⟩ := List.exists_cons_of_ne_nil admits.members_ne_nil
  obtain ⟨-, -, hnames⟩ := admits.members
  have hfirst := hnames first List.mem_cons_self
  obtain ⟨node, declared, exported, hnode, hshape⟩ := funDirective_of_declaredName hfirst
  have htag : (f.keep (first :: rest)).tag? first = some .funDirective := by
    rw [tag?_of_node? hnode, hshape]
    rfl
  obtain ⟨found, declares, hissued⟩ := fitted.declares htag
  rw [declares.declaredName] at hfirst
  cases hfirst
  exact hissued

theorem IsGroup.fitting (group : f.IsGroup shape) (fitted : f.Fitted names) :
    f.Fitting names shape := by
  obtain ⟨base, name, listed, span, rfl, rfl, short, admits⟩ := group
  exact fitting_overloads (fitted.issued_of_members admits) short admits

end Forest

end SyntaxForest
