/-
**What the parts of a step carry on.**

The steps of a builder are put together from a few parts: slots are checked, which changes nothing,
a name is numbered, a sequence is kept, and in the end a node is made.  A relation between the
builder before and the builder after that each of these parts carries on is carried on by every
step that has no other parts, whether it is refused or not.  Only four steps have parts of their
own: a function is opened, it is closed and given its local variables, a match asks for one of them,
and parentheses are noted on a node that was there.

Main definitions:

* `Builder.Carried` — a step that leaves a builder related to the one before;
* `Builder.Carries` — a relation that the common parts of the steps carry on;
* `Builder.Prepares`, `Builder.Makes` — what comes before a node is made, and the making of it;
* `Builder.Step.IsPlain` — the steps that have no other parts.

Main results:

* `Builder.makes_of_plain` — a step without other parts makes one node;
* `Builder.Carries.bind`, `Builder.Carries.makes` — one step after another, and the making of a
  node;
* `Builder.Carries.after_plain` — **what the common parts carry on, the plain steps carry on.**
-/

import SyntaxForest.Proofs.Builder.Checks
import SyntaxForest.Proofs.Forest.Carrying

set_option relaxedAutoImplicit false
set_option autoImplicit false

namespace SyntaxForest

open Forest

namespace Builder

/-! ### Builders -/

/-- A step leaves a builder that is related to the one before, refused or not. -/
def Carried {α : Type} (R : Builder → Builder → Prop) (action : Action α) : Prop :=
  ∀ b : Builder, R b (stateOf (action b))

/-- A relation between builders that the common parts of the steps carry on. -/
structure Carries (R : Builder → Builder → Prop) : Prop where
  refl : ∀ b : Builder, R b b
  trans : ∀ {b c d : Builder}, R b c → R c d → R b d
  intern : ∀ text : String, Carried R (intern text)
  insert : ∀ {shape : Shape} (span : Span), shape.tag ≠ .matching → Carried R (insert shape span)
  storeList : ∀ (ids : List NodeId) (what : String), Carried R (storeList ids what)
  groupFunctions : ∀ (name : Name) (members : List NodeId),
    Carried R (onForest (groupFunctions name members))
  parseError : ∀ error : ParseError, Carried R (parseError error)

variable {α β : Type} {R : Builder → Builder → Prop}

theorem carried_onForest {R : Forest → Forest → Prop} {action : Forest.Action α}
    (carried : ∀ f : Forest, R f (stateOf (action f))) :
    Carried (fun b c => R b.forest c.forest) (onForest action) := by
  intro b
  rw [stateOf_onForest]
  exact carried b.forest

/-- What the making of nodes other than matches carries on in the forest. -/
theorem carries_of_forest {allowed : Forest → Shape → Prop} {R : Forest → Forest → Prop}
    (carries : Forest.Carries allowed R)
    (all : ∀ f shape, shape.tag ≠ .matching → allowed f shape) :
    Carries fun b c => R b.forest c.forest where
  refl b := carries.refl b.forest
  trans first second := carries.trans first second
  intern _ b := carries.refl b.forest
  insert _ h := carried_onForest fun f => carries.insert fun _ => all f _ h
  storeList ids what := carried_onForest fun _ => carries.storeList ids what
  groupFunctions _ _ := carried_onForest fun _ =>
    carries.groupFunctions fun _ _ _ => all _ _ nofun
  parseError _ b := carries.refl b.forest

/-! ### Steps that make one node -/

/-- What a step does before it makes its node. -/
inductive Prepares : {α : Type} → Action α → Prop
  | check {α : Type} {action : Action α} (same : ∀ b : Builder, stateOf (action b) = b) :
      Prepares action
  | intern (text : String) : Prepares (intern text)
  | storeList (ids : List NodeId) (what : String) : Prepares (storeList ids what)

/-- A step that makes one node, which is no match, or is refused. -/
inductive Makes : Action NodeId → Prop
  | insert {shape : Shape} (span : Span) (tag : shape.tag ≠ .matching) : Makes (insert shape span)
  | groupFunctions (name : Name) (members : List NodeId) :
      Makes (onForest (groupFunctions name members))
  | refuse (refusal : Refusal) : Makes (throw refusal)
  | bind {α : Type} {action : Action α} {next : α → Action NodeId} (first : Prepares action)
      (second : ∀ answer, Makes (next answer)) : Makes (action >>= next)

namespace Prepares

theorem expect (expected : String) (accepts : Tag → Bool) (id : NodeId) :
    Prepares (expect expected accepts id) :=
  check fun b => stateOf_expect b expected accepts id

theorem expectOptional (expected : String) (accepts : Tag → Bool) (id : Option NodeId) :
    Prepares (expectOptional expected accepts id) :=
  check fun b => stateOf_expectOptional b expected accepts id

theorem expectAll (expected : String) (accepts : Tag → Bool) (ids : List NodeId) :
    Prepares (expectAll expected accepts ids) :=
  check fun b => stateOf_expectAll b expected accepts ids

theorem expectArms (arms : List NodeId) : Prepares (expectArms arms) :=
  check fun b => stateOf_expectArms b arms

end Prepares

namespace Makes

theorem named (text : String) (shape : Name → Shape) (span : Span)
    (tag : ∀ name, (shape name).tag ≠ .matching) :
    Makes (Builder.intern text >>= fun name => Builder.insert (shape name) span) :=
  bind (.intern text) fun name => insert span (tag name)

theorem aboveOne (expected : String) (accepts : Tag → Bool) (id : NodeId)
    (shape : NodeId → Shape) (span : Span) (tag : ∀ slot, (shape slot).tag ≠ .matching) :
    Makes (Builder.expect expected accepts id >>= fun slot => Builder.insert (shape slot) span) :=
  bind (.expect _ _ id) fun slot => insert span (tag slot)

/-- A declaration over an identifier, a written type and a value. -/
theorem declaration (name : NodeId) (type value : Option NodeId)
    (shape : NodeId → NodeId → NodeId → Shape) (span : Span)
    (tag : ∀ name type value, (shape name type value).tag ≠ .matching) :
    Makes (do
      let name ← expectName name
      let type ← expectType? type
      let value ← expectExpression? value
      Builder.insert (shape name type value) span) := by
  refine bind (.expect _ _ name) fun _ => ?_
  refine bind (.expectOptional _ _ type) fun _ => ?_
  exact bind (.expectOptional _ _ value) fun _ => insert span (tag _ _ _)

theorem constDirective (name : NodeId) (type : Option NodeId) (value : NodeId) (exported : Bool)
    (span : Span) : Makes (constDirective name type value exported span) := by
  unfold Builder.constDirective
  split
  · exact refuse _
  · refine bind (.expect _ _ name) fun _ => ?_
    refine bind (.expectOptional _ _ type) fun _ => ?_
    exact bind (.expect _ _ value) fun _ => insert span nofun

theorem call (callee : NodeId) (arguments : List NodeId) (isOperator : Bool) (span : Span) :
    Makes (call callee arguments isOperator span) := by
  refine bind (.expect _ _ callee) fun _ => ?_
  refine bind (.expectAll _ _ arguments) fun _ => ?_
  exact bind (.storeList arguments _) fun _ => insert span nofun

theorem typeBody (span : Span) : Makes (typeBody span) := insert span nofun

theorem literal (value : Literal) (span : Span) : Makes (literal value span) :=
  insert span (by cases value <;> nofun)

theorem root (directives : List NodeId) : Makes (root directives) := by
  refine bind (.expectAll _ _ directives) fun _ => ?_
  refine bind (.storeList directives _) fun segment => ?_
  exact bind (.check fun _ => rfl) fun b => insert _ nofun

end Makes

/-! ### The steps -/

/-- The steps that make one node, which is no match, or note an error of the parser. -/
def Step.IsPlain : Step → Prop
  | .beginFunction => False
  | .function .. => False
  | .matching .. => False
  | .parenthesized _ => False
  | _ => True

/-- **A plain step makes one node,** or it notes an error. -/
theorem makes_of_plain {step : Step} (plain : step.IsPlain) :
    (∃ action, Makes action ∧ perform step = some <$> action)
      ∨ ∃ error, step = .parseError error := by
  cases step
  case name text span =>
    exact Or.inl ⟨_, .named text .nameIdentifier span fun _ => nofun, rfl⟩
  case typeReference text pointerDepth isArray span =>
    exact Or.inl ⟨_, .named text (.typeReference · pointerDepth isArray) span fun _ => nofun, rfl⟩
  case variableReference target span =>
    exact Or.inl ⟨_, .aboveOne _ _ target .variableReference span fun _ => nofun, rfl⟩
  case parameter name type default span =>
    exact Or.inl ⟨_, .declaration name type default .parameter span fun _ _ _ => nofun, rfl⟩
  case beginFunction => exact plain.elim
  case function => exact plain.elim
  case funDirective function exported span =>
    exact Or.inl ⟨_, .aboveOne _ _ function (.funDirective · exported) span fun _ => nofun, rfl⟩
  case varDirective name type value exported span =>
    exact Or.inl ⟨_, .declaration name type value (.varDirective · · · exported) span
      fun _ _ _ => nofun, rfl⟩
  case constDirective name type value exported span =>
    exact Or.inl ⟨_, .constDirective name type value exported span, rfl⟩
  case typeDirective name valueType exported span =>
    exact Or.inl ⟨_, .bind (.expect _ _ name) fun _ =>
      .aboveOne _ _ valueType (.typeDirective _ · exported) span fun _ => nofun, rfl⟩
  case typeBody span => exact Or.inl ⟨_, .typeBody span, rfl⟩
  case overloads text members =>
    exact Or.inl ⟨_, .bind (.intern text) fun name => .groupFunctions name members, rfl⟩
  case literal value span => exact Or.inl ⟨_, .literal value span, rfl⟩
  case literalFromSource kind span =>
    exact Or.inl ⟨_, .bind (.check fun b => stateOf_readSource b kind span)
      fun value => .literal value span, rfl⟩
  case call callee arguments isOperator span =>
    exact Or.inl ⟨_, .call callee arguments isOperator span, rfl⟩
  case binary left operator right span =>
    exact Or.inl ⟨_, .bind (.expect _ _ left) fun left => .bind (.expect _ _ right) fun right =>
      .named operator (.binary left · right) span fun _ => nofun, rfl⟩
  case unary operator operand span =>
    exact Or.inl ⟨_, .bind (.expect _ _ operand) fun operand =>
      .named operator (.unary · operand) span fun _ => nofun, rfl⟩
  case complement operand span =>
    exact Or.inl ⟨_, .aboveOne _ _ operand .complement span fun _ => nofun, rfl⟩
  case negation operand span =>
    exact Or.inl ⟨_, .aboveOne _ _ operand .negation span fun _ => nofun, rfl⟩
  case parenthesized => exact plain.elim
  case conditionArm name condition body span =>
    exact Or.inl ⟨_, .bind (.expect _ _ name) fun name => .bind (.expect _ _ condition)
      fun condition => .aboveOne _ _ body (.conditionArm name condition) span fun _ => nofun, rfl⟩
  case literalArm value body span =>
    exact Or.inl ⟨_, .bind (.expect _ _ value) fun value =>
      .aboveOne _ _ body (.literalArm value) span fun _ => nofun, rfl⟩
  case defaultArm body span =>
    exact Or.inl ⟨_, .aboveOne _ _ body .defaultArm span fun _ => nofun, rfl⟩
  case matching => exact plain.elim
  case parseError error => exact Or.inr ⟨error, rfl⟩

namespace Carries

theorem bind {action : Action α} {next : α → Action β} (carries : Carries R)
    (first : Carried R action) (second : ∀ answer, Carried R (next answer)) :
    Carried R (action >>= next) := by
  intro b
  have hfirst := first b
  refine Step.stateOf_bind (fun {refusal c} hr => ?_) fun {answer c} hr => ?_
  · rw [hr] at hfirst
    exact hfirst
  · rw [hr] at hfirst
    exact carries.trans hfirst (second answer c)

theorem check (carries : Carries R) {action : Action α}
    (same : ∀ b : Builder, stateOf (action b) = b) : Carried R action := by
  intro b
  rw [same b]
  exact carries.refl b

theorem prepares (carries : Carries R) {action : Action α} (prepares : Prepares action) :
    Carried R action := by
  cases prepares with
  | check same => exact carries.check same
  | intern text => exact carries.intern text
  | storeList ids what => exact carries.storeList ids what

/-- What the common parts carry on, a step that makes one node carries on. -/
theorem makes (carries : Carries R) {action : Action NodeId} (makes : Makes action) :
    Carried R action := by
  induction makes with
  | insert span tag => exact carries.insert span tag
  | groupFunctions name members => exact carries.groupFunctions name members
  | refuse refusal => exact carries.refl
  | bind first _ ih => exact carries.bind (carries.prepares first) ih

/-- **What the common parts carry on, the plain steps carry on.** -/
theorem after_plain (carries : Carries R) {step : Step} (plain : step.IsPlain) (b : Builder) :
    R b (after b step) := by
  rw [after_eq_stateOf]
  rcases makes_of_plain plain with ⟨action, makes, hperform⟩ | ⟨error, rfl⟩
  · rw [hperform, SyntaxForest.Step.stateOf_map]
    exact carries.makes makes b
  · rw [perform, SyntaxForest.Step.stateOf_map]
    exact carries.parseError error b

end Carries

end Builder

end SyntaxForest
