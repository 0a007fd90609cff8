/-
**What a builder can reach.**

A step of a builder checks its slots, numbers its names, keeps its sequences and makes a node.
Whatever it does, refused or not, comes down to acts on the forest whose new nodes fit.  So the
forest of a builder is always a forest of trees, and all its nodes fit.

Main definitions:

* `Builder.Reaches` — a builder that comes after another;
* `Builder.Performs` — what a step leaves behind, and what its answer satisfies;
* `Builder.Reached`, `Builder.Sound` — the builders that come from the start, and what holds of
  them.

Main results:

* `Builder.performs_of`, `Builder.Performs.bind` — what a step performs, and one step after another;
* `Builder.reaches_after` — **every step, refused or not, reaches a builder that comes after**;
* `Builder.Reached.sound` — **what a builder has made fits and forms trees.**
-/

import SyntaxForest.Proofs.Builder.Checks
import SyntaxForest.Proofs.Forest.Tree

set_option relaxedAutoImplicit false
set_option autoImplicit false

namespace SyntaxForest

namespace Builder

open Forest

/-- A builder that comes after another: more names were given out, and new nodes fit. -/
structure Reaches (b c : Builder) : Prop where
  names : b.names.Extends c.names
  distinct : b.names.Distinct → c.names.Distinct
  acts : Acts (Fitting c.names) b.forest c.forest

/-- A step leaves a builder that comes after, and if it is not refused its answer satisfies a
condition. -/
def Performs {α : Type} (b : Builder) (action : Action α) (Q : α → Builder → Prop) : Prop :=
  match action b with
  | .ok answer c => b.Reaches c ∧ Q answer c
  | .error _ c => b.Reaches c

variable {α β : Type} {b c d : Builder} {Q : α → Builder → Prop}

theorem Reaches.refl (b : Builder) : b.Reaches b :=
  ⟨NameTable.Extends.refl _, fun h => h, Acts.refl⟩

theorem Reaches.trans (first : b.Reaches c) (second : c.Reaches d) : b.Reaches d where
  names := first.names.trans second.names
  distinct h := second.distinct (first.distinct h)
  acts := (first.acts.mono fun _ _ fitting => fitting.extends second.names).trans second.acts

theorem Reaches.continues (reaches : b.Reaches c) : b.forest.Continues c.forest :=
  reaches.acts.continues

/-! ### Steps in a row -/

/-- A step performs if it leaves a builder that comes after and its answers satisfy the
condition. -/
theorem performs_of {action : Action α} (reaches : b.Reaches (stateOf (action b)))
    (h : ∀ {answer c}, action b = .ok answer c → Q answer c) : Performs b action Q := by
  unfold Performs
  cases hr : action b with
  | error refusal c =>
      rw [hr] at reaches
      exact reaches
  | ok answer c =>
      rw [hr] at reaches
      exact ⟨reaches, h hr⟩

namespace Performs

variable {action : Action α}

/-- The builder that a step leaves behind comes after. -/
theorem reaches (performs : Performs b action Q) : b.Reaches (stateOf (action b)) := by
  unfold Performs at performs
  cases hr : action b with
  | error refusal c =>
      rw [hr] at performs
      exact performs
  | ok answer c =>
      rw [hr] at performs
      exact performs.1

theorem of_ok {answer : α} (performs : Performs b action Q) (hr : action b = .ok answer c) :
    b.Reaches c ∧ Q answer c := by
  unfold Performs at performs
  rw [hr] at performs
  exact performs

theorem mono {R : α → Builder → Prop} (performs : Performs b action Q)
    (h : ∀ {answer c}, b.Reaches c → Q answer c → R answer c) : Performs b action R := by
  refine performs_of performs.reaches fun {answer c} hr => ?_
  obtain ⟨reaches, hQ⟩ := performs.of_ok hr
  exact h reaches hQ

theorem bind {next : α → Action β} {R : β → Builder → Prop} (first : Performs b action Q)
    (second : ∀ {answer c}, b.Reaches c → Q answer c → Performs c (next answer) R) :
    Performs b (action >>= next) R := by
  refine performs_of (Step.stateOf_bind (fun {refusal c} hr => ?_) fun {answer c} hr => ?_)
    fun {answer d} hr => ?_
  · have reaches := first.reaches
    rw [hr] at reaches
    exact reaches
  · obtain ⟨reaches, hQ⟩ := first.of_ok hr
    exact reaches.trans (second reaches hQ).reaches
  · obtain ⟨middle, c, hfirst, hnext⟩ := Step.bind_eq_ok_iff.1 hr
    obtain ⟨reaches, hQ⟩ := first.of_ok hfirst
    exact ((second reaches hQ).of_ok hnext).2

end Performs

theorem performs_pure {answer : α} (h : Q answer b) : Performs b (pure answer) Q :=
  ⟨Reaches.refl b, h⟩

/-- What is done to the forest alone. -/
theorem performs_onForest {action : Forest.Action α}
    (acts : Acts (Fitting b.names) b.forest (stateOf (action b.forest)))
    (h : ∀ {answer g}, action b.forest = .ok answer g → Q answer { b with forest := g }) :
    Performs b (onForest action) Q := by
  refine performs_of ?_ fun {answer c} hr => ?_
  · rw [stateOf_onForest]
    exact ⟨NameTable.Extends.refl _, fun h => h, acts⟩
  · obtain ⟨g, hg, rfl⟩ := onForest_eq_ok_iff.1 hr
    exact h hg

theorem performs_check {action : Action α} (same : stateOf (action b) = b)
    (h : ∀ {answer c}, action b = .ok answer c → Q answer c) : Performs b action Q := by
  refine performs_of ?_ h
  rw [same]
  exact Reaches.refl b

theorem performs_intern (b : Builder) (text : String) :
    Performs b (intern text) fun name c => c.names.Issued name :=
  ⟨⟨NameTable.extends_intern _ text, fun h => h.intern text, Acts.refl⟩,
    NameTable.issued_intern _ text⟩

/-- A sequence is kept in a segment that holds it. -/
theorem performs_storeList (b : Builder) (ids : List NodeId) (what : String) :
    Performs b (storeList ids what) fun segment c =>
      segment.Inside c.forest.lists ∧ segment.length ≤ maxListLength
        ∧ c.forest.list segment = ids := by
  refine performs_onForest ((Acts.carries _).storeList ids what) fun {segment g} hr => ?_
  exact (storeList_kept hr).2

/-- A node of a shape that fits is made. -/
theorem performs_insert {shape : Shape} (fitting : b.forest.Fitting b.names shape) (span : Span) :
    Performs b (insert shape span) fun id c =>
      ∃ node, c.forest.node? id = some node ∧ node.shape = shape := by
  refine performs_onForest ((Acts.carries _).insert fun _ => fitting) fun {id g} hr => ?_
  obtain ⟨admits, rfl, rfl⟩ := insert_eq_ok_iff.1 hr
  exact ⟨_, node?_add_self admits.notMem_children, rfl⟩

/-! ### Slots -/

theorem performs_expect (b : Builder) (expected : String) (accepts : Tag → Bool) (id : NodeId) :
    Performs b (expect expected accepts id) fun slot c =>
      slot = id ∧ c.forest.Holds accepts slot := by
  refine performs_check (stateOf_expect b expected accepts id) fun {slot c} hr => ?_
  obtain ⟨rfl, rfl, held⟩ := expect_eq_ok_iff.1 hr
  exact ⟨rfl, held⟩

theorem performs_expectOptional (b : Builder) (expected : String) (accepts : Tag → Bool)
    (id : Option NodeId) :
    Performs b (expectOptional expected accepts id) fun slot c =>
      c.forest.HoldsOptional accepts slot := by
  cases id with
  | none => exact performs_pure (Or.inl rfl)
  | some id => exact (performs_expect b expected accepts id).mono fun _ h => Or.inr h.2

theorem performs_expectAll (b : Builder) (expected : String) (accepts : Tag → Bool)
    (ids : List NodeId) :
    Performs b (expectAll expected accepts ids) fun _ c => c.forest.HoldsAll accepts ids := by
  refine performs_check (stateOf_expectAll b expected accepts ids) fun {_ c} hr => ?_
  obtain ⟨rfl, held⟩ := expectAll_eq_ok_iff.1 hr
  exact held

theorem performs_expectName (b : Builder) (id : NodeId) :
    Performs b (expectName id) fun slot c => c.forest.Holds (· = .nameIdentifier) slot :=
  (performs_expect b _ _ id).mono fun _ h => h.2

theorem performs_expectExpression (b : Builder) (id : NodeId) :
    Performs b (expectExpression id) fun slot c => c.forest.Holds Tag.isExpression slot :=
  (performs_expect b _ _ id).mono fun _ h => h.2

/-- Each of a sequence is an arm, and none but the last is always taken. -/
theorem performs_expectArms (b : Builder) (arms : List NodeId) :
    Performs b (expectArms arms) fun _ c =>
      c.forest.HoldsAll Tag.isArm arms ∧ c.forest.HoldsAll (· ≠ .defaultArm) arms.dropLast := by
  refine performs_check (stateOf_expectArms b arms) fun {_ c} hr => ?_
  obtain ⟨rfl, held⟩ := expectArms_eq_ok_iff.1 hr
  exact held

/-! ### Frames and decorations -/

/-- What is not about the forest and the names does not matter. -/
theorem Reaches.of_eq (forest : c.forest = b.forest) (names : c.names = b.names) :
    b.Reaches c := by
  refine ⟨?_, ?_, ?_⟩
  · rw [names]
    exact NameTable.Extends.refl _
  · rw [names]
    exact fun h => h
  · rw [forest]
    exact Acts.refl

theorem performs_modify {change : Builder → Builder} (forest : (change b).forest = b.forest)
    (names : (change b).names = b.names) :
    Performs b (modify change : Action Unit) fun _ _ => True :=
  ⟨Reaches.of_eq forest names, True.intro⟩

theorem performs_endFunction (b : Builder) : Performs b endFunction fun _ _ => True := by
  unfold Performs endFunction
  cases b.frames with
  | nil => exact Reaches.refl b
  | cons count frames => exact ⟨Reaches.of_eq rfl rfl, True.intro⟩

theorem performs_nextLocal (b : Builder) : Performs b nextLocal fun _ _ => True :=
  performs_check (stateOf_nextLocal b) fun _ => True.intro

theorem performs_countLocal (b : Builder) : Performs b countLocal fun _ _ => True := by
  refine performs_modify ?_ ?_ <;> cases b.frames <;> rfl

theorem performs_decorate (b : Builder) (id : NodeId) {rule : Node → Except Refusal Node}
    (redecorated : ∀ {old new}, rule old = .ok new → old.Redecorated new) :
    Performs b (onForest (decorate id rule)) fun _ _ => True :=
  performs_onForest (acts_decorate redecorated) fun _ => True.intro

/-! ### The steps -/

/-- Nothing is asked of the answer of a step. -/
abbrev Proceeds {α : Type} (b : Builder) (action : Action α) : Prop :=
  Performs b action fun _ _ => True

theorem Performs.proceeds {action : Action α} (performs : Performs b action Q) :
    Proceeds b action := performs.mono fun _ _ => True.intro

theorem proceeds_insert {shape : Shape} (fitting : b.forest.Fitting b.names shape)
    (span : Span) : Proceeds b (insert shape span) := (performs_insert fitting span).proceeds

theorem proceeds_slots {shape : Shape} (segments : shape.segments = []) (names : shape.names = [])
    (fits : shape.Fits b.forest) (span : Span) : Proceeds b (insert shape span) := by
  refine proceeds_insert (fitting_of_slots segments ?_ fits) span
  rw [names]
  exact fun name hn => (nomatch hn)

/-- A node with one sequence is made after the sequence is kept. -/
theorem proceeds_segment {shape : Shape} {segment : Segment}
    (segments : shape.segments = [segment]) (inside : segment.Inside b.forest.lists)
    (short : segment.length ≤ maxListLength) (names : shape.names = [])
    (fits : shape.Fits b.forest) (span : Span) : Proceeds b (insert shape span) := by
  refine proceeds_insert (fitting_of_segment segments inside short ?_ fits) span
  rw [names]
  exact fun name hn => (nomatch hn)

/-- A node with a name is made once the name is numbered. -/
theorem proceeds_named (shape : Name → Shape) (text : String) (span : Span)
    (segments : ∀ name, (shape name).segments = []) (names : ∀ name, (shape name).names = [name])
    (fits : ∀ name, (shape name).Fits b.forest) :
    Proceeds b (intern text >>= fun name => insert (shape name) span) := by
  refine (performs_intern b text).bind fun {name c} reaches issued => ?_
  refine proceeds_insert (fitting_of_slots (segments name) ?_ ?_) span
  · intro other ho
    rw [names, List.mem_singleton] at ho
    rw [ho]
    exact issued
  · refine (fits name).continues (fun s hs => ?_) reaches.continues
    rw [segments] at hs
    cases hs

/-- A node over one node is made once the node is checked. -/
theorem proceeds_over (shape : NodeId → Shape) (expected : String) (accepts : Tag → Bool)
    (id : NodeId) (span : Span) (segments : ∀ slot, (shape slot).segments = [])
    (names : ∀ slot, (shape slot).names = [])
    (fits : ∀ {f : Forest} {slot : NodeId}, f.Holds accepts slot → (shape slot).Fits f) :
    Proceeds b (expect expected accepts id >>= fun slot => insert (shape slot) span) := by
  refine (performs_expect b expected accepts id).bind fun {slot c} _ held => ?_
  refine proceeds_insert (fitting_of_slots (segments slot) ?_ (fits held.2)) span
  rw [names]
  exact fun name hn => (nomatch hn)

theorem proceeds_name (b : Builder) (text : String) (span : Span) :
    Proceeds b (name text span) :=
  proceeds_named .nameIdentifier text span (fun _ => rfl) (fun _ => rfl) fun _ => True.intro

theorem proceeds_typeReference (b : Builder) (text : String) (pointerDepth : Nat)
    (isArray : Bool) (span : Span) : Proceeds b (typeReference text pointerDepth isArray span) :=
  proceeds_named (.typeReference · pointerDepth isArray) text span (fun _ => rfl) (fun _ => rfl)
    fun _ => True.intro

theorem proceeds_variableReference (b : Builder) (target : NodeId) (span : Span) :
    Proceeds b (variableReference target span) :=
  proceeds_over .variableReference _ _ target span (fun _ => rfl) (fun _ => rfl) fun h => h

theorem proceeds_parameter (b : Builder) (name : NodeId) (type default : Option NodeId)
    (span : Span) : Proceeds b (parameter name type default span) := by
  refine (performs_expectName b name).bind fun {name c} _ hname => ?_
  refine (performs_expectOptional c _ _ type).bind fun {type d} hd htype => ?_
  refine (performs_expectOptional d _ _ default).bind fun {default e} he hdefault => ?_
  have fits : Shape.Fits e.forest (.parameter name type default) :=
    ⟨(hname.continues hd.continues).continues he.continues, htype.continues he.continues,
      hdefault⟩
  exact proceeds_slots rfl rfl fits span

theorem proceeds_function (b : Builder) (name : NodeId) (returnType : Option NodeId)
    (parameters : List NodeId) (body : Option NodeId) (span : Span) :
    Proceeds b (function name returnType parameters body span) := by
  refine (performs_expectName b name).bind fun {name c} _ hname => ?_
  refine (performs_expectOptional c _ _ returnType).bind fun {returnType d} hd htype => ?_
  refine (performs_expectAll d _ _ parameters).bind fun {_ e} he hparameters => ?_
  refine (performs_expectOptional e _ _ body).bind fun {body g} hg hbody => ?_
  refine (performs_endFunction g).bind fun {count h} hh _ => ?_
  refine (performs_storeList h parameters _).bind fun {segment k} hk hsegment => ?_
  obtain ⟨hinside, hshort, hlist⟩ := hsegment
  have hlater := (hg.trans hh).trans hk
  have fits : Shape.Fits k.forest (.function name returnType segment body) := by
    refine ⟨hname.continues (hd.trans (he.trans hlater)).continues,
      htype.continues (he.trans hlater).continues, ?_, hbody.continues (hh.trans hk).continues⟩
    rw [hlist]
    exact hparameters.continues hlater.continues
  refine (proceeds_segment rfl hinside hshort rfl fits span).bind fun {id m} _ _ => ?_
  exact (performs_decorate m id Node.reserveLocals_redecorated).bind fun _ _ =>
    performs_pure True.intro

/-! ### Directives -/

theorem proceeds_funDirective (b : Builder) (function : NodeId) (exported : Bool) (span : Span) :
    Proceeds b (funDirective function exported span) :=
  proceeds_over (.funDirective · exported) _ _ function span (fun _ => rfl) (fun _ => rfl)
    fun h => h

theorem proceeds_varDirective (b : Builder) (name : NodeId) (type value : Option NodeId)
    (exported : Bool) (span : Span) :
    Proceeds b (varDirective name type value exported span) := by
  refine (performs_expectName b name).bind fun {name c} _ hname => ?_
  refine (performs_expectOptional c _ _ type).bind fun {type d} hd htype => ?_
  refine (performs_expectOptional d _ _ value).bind fun {value e} he hvalue => ?_
  have fits : Shape.Fits e.forest (.varDirective name type value exported) :=
    ⟨(hname.continues hd.continues).continues he.continues, htype.continues he.continues,
      hvalue⟩
  exact proceeds_slots rfl rfl fits span

theorem proceeds_constDirective (b : Builder) (name : NodeId) (type : Option NodeId)
    (value : NodeId) (exported : Bool) (span : Span) :
    Proceeds b (constDirective name type value exported span) := by
  unfold constDirective
  split
  · exact Reaches.refl b
  · refine (performs_expectName b name).bind fun {name c} _ hname => ?_
    refine (performs_expectOptional c _ _ type).bind fun {type d} hd htype => ?_
    refine (performs_expectExpression d value).bind fun {value e} he hvalue => ?_
    have fits : Shape.Fits e.forest (.constDirective name type value exported) :=
      ⟨(hname.continues hd.continues).continues he.continues, htype.continues he.continues,
        hvalue⟩
    exact proceeds_slots rfl rfl fits span

theorem proceeds_typeDirective (b : Builder) (name valueType : NodeId) (exported : Bool)
    (span : Span) : Proceeds b (typeDirective name valueType exported span) := by
  refine (performs_expectName b name).bind fun {name c} _ hname => ?_
  refine (performs_expect c _ _ valueType).bind fun {valueType d} hd htype => ?_
  have fits : Shape.Fits d.forest (.typeDirective name valueType exported) :=
    ⟨hname.continues hd.continues, htype.2⟩
  exact proceeds_slots rfl rfl fits span

theorem proceeds_typeBody (b : Builder) (span : Span) : Proceeds b (typeBody span) := by
  have fits : Shape.Fits b.forest .typeBody := True.intro
  exact proceeds_slots rfl rfl fits span

theorem proceeds_overloads (b : Builder) (text : String) (members : List NodeId) :
    Proceeds b (overloads text members) := by
  refine (performs_intern b text).bind fun {name c} _ issued => ?_
  refine performs_onForest ?_ fun _ => True.intro
  exact (Acts.carries _).groupFunctions fun short => fitting_overloads issued short

/-! ### Expressions -/

theorem proceeds_literal (b : Builder) (value : Literal) (span : Span) :
    Proceeds b (literal value span) := by
  have fits : Shape.Fits b.forest (.literal value) := True.intro
  exact proceeds_slots rfl rfl fits span

theorem proceeds_literalFromSource (b : Builder) (kind : LiteralKind) (span : Span) :
    Proceeds b (literalFromSource kind span) := by
  have read : Performs b (readSource kind span) fun _ _ => True :=
    performs_check (stateOf_readSource b kind span) fun _ => True.intro
  exact read.bind fun {value c} _ _ => proceeds_literal c value span

theorem proceeds_call (b : Builder) (callee : NodeId) (arguments : List NodeId)
    (isOperator : Bool) (span : Span) : Proceeds b (call callee arguments isOperator span) := by
  refine (performs_expectExpression b callee).bind fun {callee c} _ hcallee => ?_
  refine (performs_expectAll c _ _ arguments).bind fun {_ d} hd harguments => ?_
  refine (performs_storeList d arguments _).bind fun {segment e} he hsegment => ?_
  obtain ⟨hinside, hshort, hlist⟩ := hsegment
  have fits : Shape.Fits e.forest (.call callee segment isOperator) := by
    refine ⟨hcallee.continues (hd.trans he).continues, ?_⟩
    rw [hlist]
    exact harguments.continues he.continues
  exact proceeds_segment rfl hinside hshort rfl fits span

theorem proceeds_binary (b : Builder) (left : NodeId) (operator : String) (right : NodeId)
    (span : Span) : Proceeds b (binary left operator right span) := by
  refine (performs_expectExpression b left).bind fun {left c} _ hleft => ?_
  refine (performs_expectExpression c right).bind fun {right d} hd hright => ?_
  exact proceeds_named (fun name => .binary left name right) operator span (fun _ => rfl)
    (fun _ => rfl) fun _ => ⟨hleft.continues hd.continues, hright⟩

theorem proceeds_unary (b : Builder) (operator : String) (operand : NodeId) (span : Span) :
    Proceeds b (unary operator operand span) := by
  refine (performs_expectExpression b operand).bind fun {operand c} _ hoperand => ?_
  exact proceeds_named (fun name => .unary name operand) operator span (fun _ => rfl)
    (fun _ => rfl) fun _ => hoperand

theorem proceeds_complement (b : Builder) (operand : NodeId) (span : Span) :
    Proceeds b (complement operand span) :=
  proceeds_over .complement _ _ operand span (fun _ => rfl) (fun _ => rfl) fun h => h

theorem proceeds_negation (b : Builder) (operand : NodeId) (span : Span) :
    Proceeds b (negation operand span) :=
  proceeds_over .negation _ _ operand span (fun _ => rfl) (fun _ => rfl) fun h => h

theorem proceeds_parenthesized (b : Builder) (id : NodeId) : Proceeds b (parenthesized id) :=
  (performs_decorate b id Node.setParenthesized_redecorated).bind fun _ _ =>
    performs_pure True.intro

/-! ### Matches -/

theorem proceeds_conditionArm (b : Builder) (name condition body : NodeId) (span : Span) :
    Proceeds b (conditionArm name condition body span) := by
  refine (performs_expectName b name).bind fun {name c} _ hname => ?_
  refine (performs_expectExpression c condition).bind fun {condition d} hd hcondition => ?_
  refine (performs_expectExpression d body).bind fun {body e} he hbody => ?_
  have fits : Shape.Fits e.forest (.conditionArm name condition body) :=
    ⟨(hname.continues hd.continues).continues he.continues, hcondition.continues he.continues,
      hbody⟩
  exact proceeds_slots rfl rfl fits span

theorem proceeds_literalArm (b : Builder) (value body : NodeId) (span : Span) :
    Proceeds b (literalArm value body span) := by
  refine (performs_expect b _ _ value).bind fun {value c} _ hvalue => ?_
  refine (performs_expectExpression c body).bind fun {body d} hd hbody => ?_
  have fits : Shape.Fits d.forest (.literalArm value body) :=
    ⟨hvalue.2.continues hd.continues, hbody⟩
  exact proceeds_slots rfl rfl fits span

theorem proceeds_defaultArm (b : Builder) (body : NodeId) (span : Span) :
    Proceeds b (defaultArm body span) :=
  proceeds_over .defaultArm _ _ body span (fun _ => rfl) (fun _ => rfl) fun h => h

theorem proceeds_matching (b : Builder) (scrutinee : NodeId) (arms : List NodeId)
    (span : Span) : Proceeds b (matching scrutinee arms span) := by
  refine (performs_expectExpression b scrutinee).bind fun {scrutinee c} _ hscrutinee => ?_
  refine (performs_expectArms c arms).bind fun {_ d} hd harms => ?_
  refine (performs_nextLocal d).bind fun {slot e} he _ => ?_
  refine (performs_storeList e arms _).bind fun {segment g} hg hsegment => ?_
  obtain ⟨hinside, hshort, hlist⟩ := hsegment
  have hlater := he.trans hg
  have fits : Shape.Fits g.forest (.matching scrutinee segment slot) := by
    refine ⟨hscrutinee.continues (hd.trans hlater).continues, ?_, ?_⟩
    · rw [hlist]
      exact harms.1.continues hlater.continues
    · rw [hlist]
      exact harms.2.continues hlater.continues
  refine (proceeds_segment rfl hinside hshort rfl fits span).bind fun {id h} _ _ => ?_
  exact (performs_countLocal h).bind fun _ _ => performs_pure True.intro

/-! ### Runs -/

/-- **Every step, refused or not, reaches a builder that comes after.** -/
theorem reaches_after (b : Builder) (step : Step) : b.Reaches (after b step) := by
  rw [after_eq_stateOf]
  cases step <;> simp only [perform, SyntaxForest.Step.stateOf_map]
  case name text span => exact (proceeds_name b text span).reaches
  case typeReference text pointerDepth isArray span =>
    exact (proceeds_typeReference b text pointerDepth isArray span).reaches
  case variableReference target span => exact (proceeds_variableReference b target span).reaches
  case parameter name type default span =>
    exact (proceeds_parameter b name type default span).reaches
  case beginFunction => exact Reaches.of_eq rfl rfl
  case function name returnType parameters body span =>
    exact (proceeds_function b name returnType parameters body span).reaches
  case funDirective function exported span =>
    exact (proceeds_funDirective b function exported span).reaches
  case varDirective name type value exported span =>
    exact (proceeds_varDirective b name type value exported span).reaches
  case constDirective name type value exported span =>
    exact (proceeds_constDirective b name type value exported span).reaches
  case typeDirective name valueType exported span =>
    exact (proceeds_typeDirective b name valueType exported span).reaches
  case typeBody span => exact (proceeds_typeBody b span).reaches
  case overloads text members => exact (proceeds_overloads b text members).reaches
  case literal value span => exact (proceeds_literal b value span).reaches
  case literalFromSource kind span => exact (proceeds_literalFromSource b kind span).reaches
  case call callee arguments isOperator span =>
    exact (proceeds_call b callee arguments isOperator span).reaches
  case binary left operator right span =>
    exact (proceeds_binary b left operator right span).reaches
  case unary operator operand span => exact (proceeds_unary b operator operand span).reaches
  case complement operand span => exact (proceeds_complement b operand span).reaches
  case negation operand span => exact (proceeds_negation b operand span).reaches
  case parenthesized node => exact (proceeds_parenthesized b node).reaches
  case conditionArm name condition body span =>
    exact (proceeds_conditionArm b name condition body span).reaches
  case literalArm value body span => exact (proceeds_literalArm b value body span).reaches
  case defaultArm body span => exact (proceeds_defaultArm b body span).reaches
  case matching scrutinee arms span => exact (proceeds_matching b scrutinee arms span).reaches
  case parseError error => exact Reaches.of_eq rfl rfl

theorem reaches_runAll (b : Builder) (steps : List Step) : b.Reaches (runAll b steps) := by
  induction steps generalizing b with
  | nil => exact Reaches.refl b
  | cons step rest ih => exact (reaches_after b step).trans (ih _)

/-- The builders that come from the start, with a table of names that others may ask too. -/
inductive Reached : Builder → Prop
  | start {names : NameTable} (reached : names.Reached) (source : String)
      (file : Option String) : Reached (start names source file)
  | step {b : Builder} (reached : Reached b) (step : Step) : Reached (after b step)
  /-- Somebody else asks for the number of a text. -/
  | intern {b : Builder} (reached : Reached b) (text : String) :
      Reached { b with names := (b.names.intern text).2 }

theorem Reached.runAll (reached : b.Reached) (steps : List Step) : (runAll b steps).Reached := by
  induction steps generalizing b with
  | nil => exact reached
  | cons step rest ih => exact ih (reached.step step)

/-- What holds of the builders that come from the start. -/
structure Sound (b : Builder) : Prop where
  tree : b.forest.Treelike
  fitted : b.forest.Fitted b.names
  distinct : b.names.Distinct

theorem Sound.reaches (sound : b.Sound) (reaches : b.Reaches c) : c.Sound where
  tree := sound.tree.acts (reaches.acts.mono fun _ _ fitting => fitting.stored)
  fitted := (sound.fitted.extends reaches.names).acts
    (reaches.acts.mono fun _ _ fitting _ => fitting)
  distinct := reaches.distinct sound.distinct

/-- **What a builder has made fits and forms trees.** -/
theorem Reached.sound (reached : b.Reached) : b.Sound := by
  induction reached with
  | start reached source file =>
      refine ⟨treelike_empty, ⟨fun {id node} h => ?_, Nat.zero_le _⟩, reached.distinct⟩
      have hnone : Forest.empty.node? id = none := node?_eq_none_of_le (Nat.zero_le _)
      exact absurd (hnone.symm.trans h) (by simp)
  | step _ step ih => exact ih.reaches (reaches_after _ step)
  | @intern b _ text ih =>
      exact ih.reaches ⟨NameTable.extends_intern b.names text, fun h => h.intern text, Acts.refl⟩

/-! ### The document -/

/-- The root that is made is a document. -/
theorem performs_root (b : Builder) (directives : List NodeId) :
    Performs b (root directives) fun id c =>
      ∃ node segment, c.forest.node? id = some node ∧ node.shape = .document segment := by
  refine (performs_expectAll b _ _ directives).bind fun {_ c} _ hdirectives => ?_
  refine (performs_storeList c directives _).bind fun {segment d} hd hsegment => ?_
  obtain ⟨hinside, hshort, hlist⟩ := hsegment
  have fits : Shape.Fits d.forest (.document segment) := by
    change d.forest.HoldsAll Tag.isDirective (d.forest.list segment)
    rw [hlist]
    exact hdirectives.continues hd.continues
  have fitting : d.forest.Fitting d.names (.document segment) :=
    fitting_of_segment rfl hinside hshort (fun name hn => (nomatch hn)) fits
  refine (performs_insert fitting (wholeSpan d.source)).mono fun {id e} _ hid => ?_
  obtain ⟨node, hnode, hshape⟩ := hid
  exact ⟨node, segment, hnode, hshape⟩

theorem reaches_finish {directives : List NodeId} {document : Document}
    (h : finish b directives = .ok document) :
    ∃ c, b.Reaches c ∧ document.forest = c.forest ∧ document.names = c.names := by
  obtain ⟨id, c, hroot, rfl⟩ := finish_eq_ok_iff.1 h
  exact ⟨c, ((performs_root b directives).of_ok hroot).1, rfl, rfl⟩

end Builder

end SyntaxForest
