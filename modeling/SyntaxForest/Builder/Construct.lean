/-
**Making the nodes of a source.**

One step for each sort of node.  A step first checks its slots, in the order in which they are
listed, then numbers the name it brings, keeps the sequences it brings, and makes the node.  What
a refused step has done before the refusal stays done: a name keeps its number, a sequence its
place, and a function that was closed stays closed.

Main definitions:

* `Builder.name`, `Builder.typeReference`, `Builder.literal`, … — the leaves;
* `Builder.beginFunction`, `Builder.function` — opening a function, and closing and making it;
* `Builder.matching` — a match, with a local variable of the innermost open function;
* `Builder.funDirective`, `Builder.constDirective`, … — the directives;
* `Builder.finish` — the document.

Main results:

* `Builder.nextLocal_outside` — outside every function there is no local variable.
-/

import SyntaxForest.Builder.Basic
import SyntaxForest.Document.Basic
import SyntaxForest.Text.Bytes

set_option relaxedAutoImplicit false
set_option autoImplicit false

namespace SyntaxForest

namespace Builder

def parseError (error : ParseError) : Action Unit :=
  modify fun b => { b with parseErrors := b.parseErrors ++ [error] }

/-! ### Names -/

def name (text : String) (span : Span) : Action NodeId := do
  let name ← intern text
  insert (.nameIdentifier name) span

def typeReference (text : String) (pointerDepth : Nat) (isArray : Bool) (span : Span) :
    Action NodeId := do
  let name ← intern text
  insert (.typeReference name pointerDepth isArray) span

def variableReference (target : NodeId) (span : Span) : Action NodeId := do
  let target ← expectName target
  insert (.variableReference target) span

def parameter (name : NodeId) (type default : Option NodeId) (span : Span) :
    Action NodeId := do
  let name ← expectName name
  let type ← expectType? type
  let default ← expectExpression? default
  insert (.parameter name type default) span

/-! ### Functions -/

/-- Opens a function. -/
def beginFunction : Action Unit :=
  modify fun b => { b with frames := 0 :: b.frames }

/-- Closes the innermost open function; the answer is the number of locals wanted in it. -/
def endFunction : Action Nat := fun b =>
  match b.frames with
  | [] => .error .unbalancedFunction b
  | count :: frames => .ok count { b with frames := frames }

/-- Closes the innermost open function and makes it. -/
def function (name : NodeId) (returnType : Option NodeId) (parameters : List NodeId)
    (body : Option NodeId) (span : Span) : Action NodeId := do
  let name ← expectName name
  let returnType ← expectType? returnType
  expectAll "ParameterNode" (· = .parameter) parameters
  let body ← expectExpression? body
  -- From here on the function stays closed, also if it is refused.
  let count ← endFunction
  let parameters ← storeList parameters "parameters"
  let id ← insert (.function name returnType parameters body) span
  onForest (Forest.decorate id (Node.reserveLocals count id))
  return id

/-! ### Directives -/

def funDirective (function : NodeId) (exported : Bool) (span : Span) : Action NodeId := do
  let function ← expect "FunctionNode" (· = .function) function
  insert (.funDirective function exported) span

def varDirective (name : NodeId) (type value : Option NodeId) (exported : Bool) (span : Span) :
    Action NodeId := do
  let name ← expectName name
  let type ← expectType? type
  let value ← expectExpression? value
  insert (.varDirective name type value exported) span

def constDirective (name : NodeId) (type : Option NodeId) (value : NodeId) (exported : Bool)
    (span : Span) : Action NodeId := do
  if !value.isPresent then throw (.uninitializedConst span)
  let name ← expectName name
  let type ← expectType? type
  let value ← expectExpression value
  insert (.constDirective name type value exported) span

def typeDirective (name valueType : NodeId) (exported : Bool) (span : Span) :
    Action NodeId := do
  let name ← expectName name
  let valueType ← expect "TypeNode" (· = .typeBody) valueType
  insert (.typeDirective name valueType exported) span

def typeBody (span : Span) : Action NodeId := insert .typeBody span

def overloads (text : String) (members : List NodeId) : Action NodeId := do
  let name ← intern text
  onForest (Forest.groupFunctions name members)

/-! ### Expressions -/

def literal (value : Literal) (span : Span) : Action NodeId := insert (.literal value) span

/-- The value of the source text under a span as a literal of a kind. -/
def readSource (kind : LiteralKind) (span : Span) : Action Literal := fun b =>
  match span.slice? b.source with
  | none => .error (.invalidLiteral kind "") b
  | some text =>
      match Literal.parse kind text with
      | .error refusal => .error refusal b
      | .ok value => .ok value b

/-- Makes a literal from the source text under a span. -/
def literalFromSource (kind : LiteralKind) (span : Span) : Action NodeId := do
  let value ← readSource kind span
  literal value span

def call (callee : NodeId) (arguments : List NodeId) (isOperator : Bool) (span : Span) :
    Action NodeId := do
  let callee ← expectExpression callee
  expectAll "expression" Tag.isExpression arguments
  let arguments ← storeList arguments "arguments"
  insert (.call callee arguments isOperator) span

/-- Makes a binary expression; an empty operator leaves it unset. -/
def binary (left : NodeId) (operator : String) (right : NodeId) (span : Span) :
    Action NodeId := do
  let left ← expectExpression left
  let right ← expectExpression right
  let operator ← intern operator
  insert (.binary left operator right) span

def unary (operator : String) (operand : NodeId) (span : Span) : Action NodeId := do
  let operand ← expectExpression operand
  let operator ← intern operator
  insert (.unary operator operand) span

def complement (operand : NodeId) (span : Span) : Action NodeId := do
  let operand ← expectExpression operand
  insert (.complement operand) span

def negation (operand : NodeId) (span : Span) : Action NodeId := do
  let operand ← expectExpression operand
  insert (.negation operand) span

def parenthesized (id : NodeId) : Action NodeId := do
  onForest (Forest.decorate id Node.setParenthesized)
  return id

/-! ### Matches -/

def conditionArm (name condition body : NodeId) (span : Span) : Action NodeId := do
  let name ← expectName name
  let condition ← expectExpression condition
  let body ← expectExpression body
  insert (.conditionArm name condition body) span

def literalArm (value body : NodeId) (span : Span) : Action NodeId := do
  let value ← expect "literal" Tag.isLiteral value
  let body ← expectExpression body
  insert (.literalArm value body) span

def defaultArm (body : NodeId) (span : Span) : Action NodeId := do
  let body ← expectExpression body
  insert (.defaultArm body) span

/-- Each of a sequence is an arm, and only the last may always be taken. -/
def expectArms : List NodeId → Action Unit
  | [] => pure ()
  | arm :: rest => fun b =>
      match expect "match arm" Tag.isArm arm b with
      | .error refusal b => .error refusal b
      | .ok arm b =>
          if b.forest.tag? arm = some .defaultArm ∧ rest ≠ [] then
            .error (.defaultArmNotLast arm) b
          else expectArms rest b

/-- The next local variable of the innermost open function. -/
def nextLocal : Action LocalSlot := fun b =>
  match b.frames with
  | [] => .error .noEnclosingFunction b
  | count :: _ => .ok ⟨count⟩ b

/-- Wants a local variable more in the innermost open function. -/
def countLocal : Action Unit :=
  modify fun b =>
    match b.frames with
    | [] => b
    | count :: frames => { b with frames := (count + 1) :: frames }

/-- Makes a match, with a local variable of the innermost open function. -/
def matching (scrutinee : NodeId) (arms : List NodeId) (span : Span) : Action NodeId := do
  let scrutinee ← expectExpression scrutinee
  expectArms arms
  let slot ← nextLocal
  let arms ← storeList arms "match arms"
  let id ← insert (.matching scrutinee arms slot) span
  countLocal
  return id

/-! ### The document -/

/-- The span of a whole source; none for a source whose length is not a 32-bit number. -/
def wholeSpan (source : String) : Span :=
  if source.utf8ByteSize ≤ maxWord then ⟨0, source.utf8ByteSize⟩ else Span.none

def root (directives : List NodeId) : Action NodeId := do
  expectAll "directive" Tag.isDirective directives
  let segment ← storeList directives "directives"
  let b ← get
  insert (.document segment) (wholeSpan b.source)

/-- **Makes the root and hands the document over.** -/
def finish (b : Builder) (directives : List NodeId) : Except Refusal Document :=
  match root directives b with
  | .error refusal _ => .error refusal
  | .ok id ⟨forest, names, _, parseErrors, file, source⟩ =>
      .ok ⟨forest, id, names, parseErrors, file, source, none⟩

theorem nextLocal_outside {b : Builder} (h : b.frames = []) :
    nextLocal b = .error .noEnclosingFunction b := by
  simp only [nextLocal, h]

end Builder

end SyntaxForest
