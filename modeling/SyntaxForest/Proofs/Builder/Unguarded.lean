/-
**Builders without guards.**

A builder that works on tables that do not forgive could break in three ways: it could reach outside
of a table, it could ask for the number of a text when all numbers are given out, and the count of
an open function could leave its word.  This module has the steps of such a builder.  They look at
the same things and in the same order as those of the builder that forgives, but where a slot is
looked at again, or a count goes up, nobody has checked anything before.  A builder that comes from
the start does not notice the difference.  What it has made keeps its promises, and a function has
no more matches than there are nodes, so its count stops growing before it is out of room; only the
table of names has to have room for another text.

Main definitions:

* `Builder.Unguarded.onForest`, `Builder.Unguarded.intern`, `Builder.Unguarded.countLocal` — what
  may break;
* `Builder.Unguarded.perform`, `Builder.Unguarded.runAll`, `Builder.Unguarded.finish` — a step, a
  run, and handing the document over;
* `Builder.Sturdy` — a builder that will not break.

Main results:

* `Builder.Reached.sturdy` — a builder that comes from the start is sturdy;
* `Builder.Unguarded.perform_agrees` — **a step of a sturdy builder does not break**;
* `Builder.Unguarded.runAll_eq`, `Builder.Unguarded.finish_eq` — nor does a run, nor its end.
-/

import SyntaxForest.Proofs.Builder.Ledger
import SyntaxForest.Proofs.Document.Decorations
import SyntaxForest.Proofs.Forest.Unguarded
import SyntaxForest.Proofs.Syntax.Numbering

set_option relaxedAutoImplicit false
set_option autoImplicit false

namespace SyntaxForest

open Forest

open SyntaxForest.Step (heed Agrees)

namespace Builder

namespace Unguarded

variable {α β : Type} {b c : Builder} {P : Builder → Prop}

/-- A step of a builder on tables without guards. -/
abbrev Action (α : Type) := EStateM Stop Builder α

/-! ### What may break -/

def onForest (action : Forest.Unguarded.Action α) : Action α := fun b =>
  match action b.forest with
  | .ok answer forest => .ok answer { b with forest := forest }
  | .error stop forest => .error stop { b with forest := forest }

/-- The name of a text; there is none if the text is new and all numbers are given out. -/
def intern (text : String) : Action Name := fun b =>
  match b.names.intern? text with
  | .ok (name, names) => .ok name { b with names := names }
  | .error _ => .error .overflow b

def insert (shape : Shape) (span : Span) : Action NodeId :=
  onForest (Forest.Unguarded.insert shape span)

def countLocal : Action Unit := fun b =>
  match b.frames with
  | [] => .ok () b
  | count :: frames =>
      if count < maxWord then .ok () { b with frames := (count + 1) :: frames }
      else .error .overflow b

/-! ### The steps -/

/-- Makes a node over what a check answers. -/
def above (check : Builder.Action α) (shape : α → Shape) (span : Span) : Action NodeId := do
  let answer ← heed Stop.refused check
  insert (shape answer) span

def named (text : String) (shape : Name → Shape) (span : Span) : Action NodeId := do
  let name ← intern text
  insert (shape name) span

/-- Makes a node over an identifier, a written type and a value. -/
def declaration (name : NodeId) (type value : Option NodeId)
    (shape : NodeId → NodeId → NodeId → Shape) (span : Span) : Action NodeId := do
  let name ← heed Stop.refused (expectName name)
  let type ← heed Stop.refused (expectType? type)
  above (expectExpression? value) (shape name type) span

def constDirective (name : NodeId) (type : Option NodeId) (value : NodeId) (exported : Bool)
    (span : Span) : Action NodeId := do
  if !value.isPresent then throw (.refused (.uninitializedConst span))
  let name ← heed Stop.refused (expectName name)
  let type ← heed Stop.refused (expectType? type)
  above (expectExpression value) (.constDirective name type · exported) span

def function (name : NodeId) (returnType : Option NodeId) (parameters : List NodeId)
    (body : Option NodeId) (span : Span) : Action NodeId := do
  let name ← heed Stop.refused (expectName name)
  let returnType ← heed Stop.refused (expectType? returnType)
  heed Stop.refused (expectAll "ParameterNode" (· = .parameter) parameters)
  let body ← heed Stop.refused (expectExpression? body)
  let count ← heed Stop.refused endFunction
  let parameters ← heed Stop.refused (storeList parameters "parameters")
  let id ← insert (.function name returnType parameters body) span
  heed Stop.refused (Builder.onForest (decorate id (Node.reserveLocals count id)))
  return id

def call (callee : NodeId) (arguments : List NodeId) (isOperator : Bool) (span : Span) :
    Action NodeId := do
  let callee ← heed Stop.refused (expectExpression callee)
  heed Stop.refused (expectAll "expression" Tag.isExpression arguments)
  above (storeList arguments "arguments") (.call callee · isOperator) span

/-- Each of a sequence is an arm, and only the last may always be taken. -/
def expectArms : List NodeId → Action Unit
  | [] => pure ()
  | arm :: rest => do
      let arm ← heed Stop.refused (expect "match arm" Tag.isArm arm)
      -- the arm is looked at again
      let node ← onForest (Forest.Unguarded.ask (Forest.Unguarded.read · arm))
      if node.shape.tag = .defaultArm ∧ rest ≠ [] then
        throw (.refused (.defaultArmNotLast arm))
      else expectArms rest

/-- Makes a match, with a local variable of the innermost open function. -/
def matching (scrutinee : NodeId) (arms : List NodeId) (span : Span) : Action NodeId := do
  let scrutinee ← heed Stop.refused (expectExpression scrutinee)
  expectArms arms
  let slot ← heed Stop.refused nextLocal
  let arms ← heed Stop.refused (storeList arms "match arms")
  let id ← insert (.matching scrutinee arms slot) span
  countLocal
  return id

/-- Does a step; the answer is the node it makes, if it makes one. -/
def perform : Step → Action (Option NodeId)
  | .name text span => some <$> named text .nameIdentifier span
  | .typeReference text pointerDepth isArray span =>
      some <$> named text (.typeReference · pointerDepth isArray) span
  | .variableReference target span => some <$> above (expectName target) .variableReference span
  | .parameter name type default span => some <$> declaration name type default .parameter span
  | .beginFunction => (fun _ => none) <$> heed Stop.refused beginFunction
  | .function name returnType parameters body span =>
      some <$> function name returnType parameters body span
  | .funDirective function exported span =>
      some <$> above (expect "FunctionNode" (· = .function) function) (.funDirective · exported)
        span
  | .varDirective name type value exported span =>
      some <$> declaration name type value (.varDirective · · · exported) span
  | .constDirective name type value exported span =>
      some <$> constDirective name type value exported span
  | .typeDirective name valueType exported span => some <$> do
      let name ← heed Stop.refused (expectName name)
      above (expect "TypeNode" (· = .typeBody) valueType) (.typeDirective name · exported) span
  | .typeBody span => some <$> insert .typeBody span
  | .overloads text members => some <$> do
      let name ← intern text
      onForest (Forest.Unguarded.groupFunctions name members)
  | .literal value span => some <$> insert (.literal value) span
  | .literalFromSource kind span => some <$> above (readSource kind span) .literal span
  | .call callee arguments isOperator span => some <$> call callee arguments isOperator span
  | .binary left operator right span => some <$> do
      let left ← heed Stop.refused (expectExpression left)
      let right ← heed Stop.refused (expectExpression right)
      named operator (.binary left · right) span
  | .unary operator operand span => some <$> do
      let operand ← heed Stop.refused (expectExpression operand)
      named operator (.unary · operand) span
  | .complement operand span => some <$> above (expectExpression operand) .complement span
  | .negation operand span => some <$> above (expectExpression operand) .negation span
  | .parenthesized node => some <$> heed Stop.refused (parenthesized node)
  | .conditionArm name condition body span => some <$> do
      let name ← heed Stop.refused (expectName name)
      let condition ← heed Stop.refused (expectExpression condition)
      above (expectExpression body) (.conditionArm name condition) span
  | .literalArm value body span => some <$> do
      let value ← heed Stop.refused (expect "literal" Tag.isLiteral value)
      above (expectExpression body) (.literalArm value) span
  | .defaultArm body span => some <$> above (expectExpression body) .defaultArm span
  | .matching scrutinee arms span => some <$> matching scrutinee arms span
  | .parseError error => (fun _ => none) <$> heed Stop.refused (parseError error)

/-- The builder after a step, unless something breaks; a refusal breaks nothing. -/
def after (b : Builder) (step : Step) : Except Stop Builder :=
  match perform step b with
  | .ok _ c => .ok c
  | .error (.refused _) c => .ok c
  | .error stop _ => .error stop

def runAll (b : Builder) (steps : List Step) : Except Stop Builder := steps.foldlM after b

def root (directives : List NodeId) : Action NodeId := do
  heed Stop.refused (expectAll "directive" Tag.isDirective directives)
  let segment ← heed Stop.refused (storeList directives "directives")
  let b ← get
  insert (.document segment) (wholeSpan b.source)

/-- Makes the root and hands the document over. -/
def finish (b : Builder) (directives : List NodeId) : Except Stop Document :=
  match root directives b with
  | .error stop _ => .error stop
  | .ok id c => .ok ⟨c.forest, id, c.names, c.parseErrors, c.file, c.source, none⟩

end Unguarded

/-! ### Sturdy builders -/

/-- A builder that will not break. -/
structure Sturdy (b : Builder) : Prop where
  ruled : b.forest.Ruled
  names : b.names.size < NameTable.capacity
  /-- No open function has counted more than there are nodes. -/
  counts : ∀ count ∈ b.frames, count ≤ b.forest.size

/-- **A builder that comes from the start is sturdy,** as long as there is room for a text. -/
theorem Reached.sturdy {b : Builder} (reached : b.Reached)
    (names : b.names.size < NameTable.capacity) : b.Sturdy where
  ruled := Ruled.empty.moves reached.moves
  names := names
  counts count hcount := by
    obtain ⟨l, kept, rfl⟩ := reached.exists_ledger
    exact kept.balanced.count_le_size hcount

namespace Unguarded

variable {α β : Type} {b c : Builder} {P : Builder → Prop} {next : α → Builder.Action β}
  {later : α → Action β}

/-! ### Parts of steps -/

theorem onForest_agrees {action : Forest.Action α} {operation : Forest.Unguarded.Action α}
    (agrees : Agrees Stop.refused Ruled action operation) :
    Agrees Stop.refused (fun b => b.forest.Ruled) (Builder.onForest action)
      (onForest operation) := by
  intro b ruled
  rw [onForest, agrees b.forest ruled]
  unfold heed Builder.onForest
  dsimp only
  cases action b.forest <;> rfl

theorem insert_agrees (shape : Shape) (span : Span) :
    Agrees Stop.refused (fun b => b.forest.Ruled) (Builder.insert shape span)
      (insert shape span) :=
  onForest_agrees (Forest.Unguarded.insert_agrees shape span)

/-- After a check comes what would have come before it. -/
theorem agrees_of_check {check : Builder.Action α} (same : ∀ b, stateOf (check b) = b)
    (second : ∀ answer, Agrees Stop.refused P (next answer) (later answer)) :
    Agrees Stop.refused P (check >>= next) (heed Stop.refused check >>= later) := by
  refine Agrees.bind (R := fun _ => P) (Agrees.self check) (fun hb run => ?_) second
  rw [SyntaxForest.Step.eq_of_check (same _) run]
  exact hb

/-- What comes before a node leaves promises alone. -/
theorem agrees_of_prepares {first : Builder.Action α} (prepares : Prepares first)
    (second : ∀ answer, Agrees Stop.refused (fun b => b.forest.Ruled) (next answer)
      (later answer)) :
    Agrees Stop.refused (fun b => b.forest.Ruled) (first >>= next)
      (heed Stop.refused first >>= later) := by
  refine Agrees.bind (R := fun _ b => b.forest.Ruled) (Agrees.self first)
    (fun {b answer c} ruled run => ?_) second
  cases prepares with
  | check same => rwa [SyntaxForest.Step.eq_of_check (same b) run]
  | intern text =>
      cases run
      exact ruled
  | storeList ids what =>
      rw [(storeList_ok run).1]
      exact ruled.moves ((Moves.refl _).act (Act.keep ids))

theorem above_agrees {check : Builder.Action α} (prepares : Prepares check) (shape : α → Shape)
    (span : Span) :
    Agrees Stop.refused (fun b => b.forest.Ruled)
      (check >>= fun answer => Builder.insert (shape answer) span) (above check shape span) :=
  agrees_of_prepares prepares fun answer => insert_agrees (shape answer) span

theorem intern_agrees (text : String) :
    Agrees Stop.refused Sturdy (Builder.intern text) (intern text) := by
  intro b sturdy
  rw [intern, NameTable.intern?_of_lt sturdy.names]
  rfl

theorem agrees_of_ruled {action : Builder.Action α} {operation : Action α}
    (agrees : Agrees Stop.refused (fun b => b.forest.Ruled) action operation) :
    Agrees Stop.refused Sturdy action operation :=
  agrees.mono fun _ sturdy => sturdy.ruled

/-- After a name comes what relies on promises alone. -/
theorem agrees_of_intern {next : Name → Builder.Action α} {later : Name → Action α} (text : String)
    (second : ∀ name, Agrees Stop.refused (fun b => b.forest.Ruled) (next name) (later name)) :
    Agrees Stop.refused Sturdy (Builder.intern text >>= next) (intern text >>= later) := by
  refine Agrees.bind (R := fun _ b => b.forest.Ruled) (intern_agrees text)
    (fun {b name c} sturdy run => ?_) second
  cases run
  exact sturdy.ruled

theorem named_agrees (text : String) (shape : Name → Shape) (span : Span) :
    Agrees Stop.refused Sturdy
      (Builder.intern text >>= fun name => Builder.insert (shape name) span)
      (named text shape span) :=
  agrees_of_intern text fun name => insert_agrees (shape name) span

theorem declaration_agrees (name : NodeId) (type value : Option NodeId)
    (shape : NodeId → NodeId → NodeId → Shape) (span : Span) :
    Agrees Stop.refused (fun b => b.forest.Ruled)
      (do
        let name ← expectName name
        let type ← expectType? type
        let value ← expectExpression? value
        Builder.insert (shape name type value) span)
      (declaration name type value shape span) := by
  refine agrees_of_prepares (.expect _ _ name) fun name => ?_
  refine agrees_of_prepares (.expectOptional _ _ type) fun type => ?_
  exact above_agrees (.expectOptional _ _ value) (shape name type) span

theorem constDirective_agrees (name : NodeId) (type : Option NodeId) (value : NodeId)
    (exported : Bool) (span : Span) :
    Agrees Stop.refused (fun b => b.forest.Ruled)
      (Builder.constDirective name type value exported span)
      (constDirective name type value exported span) := by
  unfold Builder.constDirective constDirective
  split
  · exact fun _ _ => rfl
  · refine agrees_of_prepares (.expect _ _ name) fun name => ?_
    refine agrees_of_prepares (.expectOptional _ _ type) fun type => ?_
    exact above_agrees (.expect _ _ value) (.constDirective name type · exported) span

theorem call_agrees (callee : NodeId) (arguments : List NodeId) (isOperator : Bool)
    (span : Span) :
    Agrees Stop.refused (fun b => b.forest.Ruled)
      (Builder.call callee arguments isOperator span) (call callee arguments isOperator span) := by
  refine agrees_of_prepares (.expect _ _ callee) fun callee => ?_
  refine agrees_of_prepares (.expectAll _ _ arguments) fun _ => ?_
  exact above_agrees (.storeList arguments _) (.call callee · isOperator) span

/-- A function that is closed stays closed, whatever comes next. -/
theorem function_agrees (name : NodeId) (returnType : Option NodeId) (parameters : List NodeId)
    (body : Option NodeId) (span : Span) :
    Agrees Stop.refused (fun b => b.forest.Ruled)
      (Builder.function name returnType parameters body span)
      (function name returnType parameters body span) := by
  refine agrees_of_prepares (.expect _ _ name) fun name => ?_
  refine agrees_of_prepares (.expectOptional _ _ returnType) fun returnType => ?_
  refine agrees_of_prepares (.expectAll _ _ parameters) fun _ => ?_
  refine agrees_of_prepares (.expectOptional _ _ body) fun body => ?_
  refine Agrees.bind (R := fun _ b => b.forest.Ruled) (Agrees.self _)
    (fun {b count c} ruled run => ?_) fun count => ?_
  · unfold endFunction at run
    split at run
    · cases run
    · cases run
      exact ruled
  refine agrees_of_prepares (.storeList parameters _) fun parameters => ?_
  refine Agrees.bind (R := fun _ _ => True) (insert_agrees _ span) (fun _ _ => True.intro)
    fun id => ?_
  exact (Agrees.self _).last fun _ => id

/-! ### Matches -/

/-- An arm that is known to be one is there when it is looked at again. -/
theorem expectArms_agrees (arms : List NodeId) :
    Agrees Stop.refused P (Builder.expectArms arms) (expectArms arms) := by
  induction arms with
  | nil => exact Agrees.pure ()
  | cons arm rest ih =>
      rw [expectArms_cons]
      refine Agrees.bind (R := fun arm b => P b ∧ ∃ node, b.forest.node? arm = some node)
        (Agrees.self _) (fun {b arm c} hb run => ?_) fun arm => ?_
      · obtain ⟨rfl, rfl, tag, htag, -⟩ := expect_eq_ok_iff.1 run
        obtain ⟨node, hnode, -⟩ := tag?_eq_some_iff.1 htag
        exact ⟨hb, node, hnode⟩
      · rintro b ⟨hb, node, hnode⟩
        have again : onForest (Forest.Unguarded.ask (Forest.Unguarded.read · arm)) b
            = .ok node b := by
          rw [onForest, Forest.Unguarded.ask, Forest.Unguarded.read, hnode]
        rw [SyntaxForest.Step.bind_of_ok again]
        unfold heed expectArmsAfter
        simp only [tag?_of_node? hnode, Option.some.injEq]
        split
        · rfl
        · exact ih b hb

/-- A count goes up as long as it is no more than the number of nodes. -/
theorem countLocal_agrees :
    Agrees Stop.refused (fun b => ∀ count ∈ b.frames, count < maxWord) Builder.countLocal
      countLocal := by
  intro b counts
  rw [countLocal]
  cases hframes : b.frames with
  | nil => rw [heed, countLocal_outside hframes]
  | cons count frames =>
      dsimp only
      rw [heed, countLocal_eq hframes, if_pos (counts count (hframes ▸ List.mem_cons_self))]

theorem matching_agrees (scrutinee : NodeId) (arms : List NodeId) (span : Span) :
    Agrees Stop.refused Sturdy (Builder.matching scrutinee arms span)
      (matching scrutinee arms span) := by
  refine agrees_of_check (fun b => stateOf_expect b _ _ scrutinee) fun scrutinee => ?_
  refine Agrees.bind (R := fun _ => Sturdy) (expectArms_agrees arms) (fun sturdy run => ?_)
    fun _ => ?_
  · rw [(expectArms_eq_ok_iff.1 run).1]
    exact sturdy
  refine agrees_of_check stateOf_nextLocal fun slot => ?_
  refine Agrees.bind
    (R := fun _ b => b.forest.Ruled ∧ ∀ count ∈ b.frames, count ≤ b.forest.size)
    (Agrees.self _) (fun {b segment c} sturdy run => ?_) fun arms => ?_
  · obtain ⟨hforest, hframes⟩ := storeList_ok run
    rw [hforest, hframes]
    exact ⟨sturdy.ruled.moves ((Moves.refl _).act (Act.keep _)), sturdy.counts⟩
  refine Agrees.bind (R := fun _ b => ∀ count ∈ b.frames, count < maxWord)
    ((insert_agrees _ span).mono fun _ h => h.1) (fun {b id c} h run => ?_) fun id => ?_
  · obtain ⟨-, admits, -, -, hframes⟩ := insert_ok run
    rw [hframes]
    exact fun count hcount => Nat.lt_of_le_of_lt (h.2 count hcount) admits.room
  exact countLocal_agrees.last fun _ => id

/-! ### Runs -/

/-- **A step of a sturdy builder does not break.** -/
theorem perform_agrees (step : Step) :
    Agrees Stop.refused Sturdy (Builder.perform step) (perform step) := by
  cases step with
  | name text span => exact (named_agrees text .nameIdentifier span).map some
  | typeReference text pointerDepth isArray span =>
      exact (named_agrees text (.typeReference · pointerDepth isArray) span).map some
  | variableReference target span =>
      exact (agrees_of_ruled (above_agrees (.expect _ _ target) .variableReference span)).map some
  | parameter name type default span =>
      exact (agrees_of_ruled (declaration_agrees name type default .parameter span)).map some
  | beginFunction => exact (Agrees.self beginFunction).map _
  | function name returnType parameters body span =>
      exact (agrees_of_ruled (function_agrees name returnType parameters body span)).map some
  | funDirective function exported span =>
      exact (agrees_of_ruled (above_agrees (.expect _ _ function) (.funDirective · exported)
        span)).map some
  | varDirective name type value exported span =>
      exact (agrees_of_ruled (declaration_agrees name type value (.varDirective · · · exported)
        span)).map some
  | constDirective name type value exported span =>
      exact (agrees_of_ruled (constDirective_agrees name type value exported span)).map some
  | typeDirective name valueType exported span =>
      refine Agrees.map some (agrees_of_ruled
        (agrees_of_prepares (.expect _ _ name) fun name => ?_))
      exact above_agrees (.expect _ _ valueType) (.typeDirective name · exported) span
  | typeBody span => exact (agrees_of_ruled (insert_agrees .typeBody span)).map some
  | overloads text members =>
      refine Agrees.map some (agrees_of_intern text fun name => ?_)
      exact onForest_agrees (Forest.Unguarded.groupFunctions_agrees name members)
  | literal value span => exact (agrees_of_ruled (insert_agrees (.literal value) span)).map some
  | literalFromSource kind span =>
      exact (agrees_of_ruled (above_agrees (.check fun b => stateOf_readSource b kind span) .literal
        span)).map some
  | call callee arguments isOperator span =>
      exact (agrees_of_ruled (call_agrees callee arguments isOperator span)).map some
  | binary left operator right span =>
      refine Agrees.map some (agrees_of_check (fun b => stateOf_expect b _ _ left) fun left => ?_)
      refine agrees_of_check (fun b => stateOf_expect b _ _ right) fun right => ?_
      exact named_agrees operator (.binary left · right) span
  | unary operator operand span =>
      refine Agrees.map some
        (agrees_of_check (fun b => stateOf_expect b _ _ operand) fun operand => ?_)
      exact named_agrees operator (.unary · operand) span
  | complement operand span =>
      exact (agrees_of_ruled (above_agrees (.expect _ _ operand) .complement span)).map some
  | negation operand span =>
      exact (agrees_of_ruled (above_agrees (.expect _ _ operand) .negation span)).map some
  | parenthesized node => exact (Agrees.self (parenthesized node)).map some
  | conditionArm name condition body span =>
      refine Agrees.map some (agrees_of_ruled
        (agrees_of_prepares (.expect _ _ name) fun name => ?_))
      refine agrees_of_prepares (.expect _ _ condition) fun condition => ?_
      exact above_agrees (.expect _ _ body) (.conditionArm name condition) span
  | literalArm value body span =>
      refine Agrees.map some (agrees_of_ruled
        (agrees_of_prepares (.expect _ _ value) fun value => ?_))
      exact above_agrees (.expect _ _ body) (.literalArm value) span
  | defaultArm body span =>
      exact (agrees_of_ruled (above_agrees (.expect _ _ body) .defaultArm span)).map some
  | matching scrutinee arms span => exact (matching_agrees scrutinee arms span).map some
  | parseError error => exact (Agrees.self (parseError error)).map _

theorem after_eq (sturdy : b.Sturdy) (step : Step) : after b step = .ok (Builder.after b step) := by
  rw [after, perform_agrees step b sturdy, heed, Builder.after]
  cases Builder.perform step b <;> rfl

/-- **No run breaks** while the table of names has room. -/
theorem runAll_eq (reached : b.Reached) (steps : List Step)
    (names : (Builder.runAll b steps).names.size < NameTable.capacity) :
    runAll b steps = .ok (Builder.runAll b steps) := by
  induction steps generalizing b with
  | nil => rfl
  | cons step rest ih =>
      have room : b.names.size < NameTable.capacity :=
        Nat.lt_of_le_of_lt (reaches_runAll b (step :: rest)).names.length_le names
      rw [runAll, List.foldlM_cons, after_eq (reached.sturdy room) step]
      exact ih (reached.step step) names

theorem root_agrees (directives : List NodeId) :
    Agrees Stop.refused (fun b => b.forest.Ruled) (Builder.root directives) (root directives) := by
  refine agrees_of_prepares (.expectAll _ _ directives) fun _ => ?_
  refine agrees_of_prepares (.storeList directives _) fun segment => ?_
  refine Agrees.bind (R := fun _ b => b.forest.Ruled) (fun _ _ => rfl)
    (fun {b answer c} ruled run => ?_) fun b => insert_agrees _ _
  cases run
  exact ruled

/-- **Handing the document over does not break.** -/
theorem finish_eq (ruled : b.forest.Ruled) (directives : List NodeId) :
    finish b directives = (b.finish directives).mapError Stop.refused := by
  rw [finish, root_agrees directives b ruled, heed, Builder.finish]
  cases Builder.root directives b <;> rfl

end Unguarded

end Builder

end SyntaxForest
