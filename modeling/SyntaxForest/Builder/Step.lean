/-
**Runs of a builder.**

A step of a builder as data: which node to make, and of what.  A run of a builder is a list of
steps, the refused ones among them.

Main definitions:

* `Builder.Step`, `Builder.perform` — a step, and doing it;
* `Builder.after`, `Builder.runAll` — the builder after a step and after a list of them.

Main results:

* `Builder.runAll_append` — one run after another is a run.
-/

import SyntaxForest.Builder.Construct

set_option relaxedAutoImplicit false
set_option autoImplicit false

namespace SyntaxForest

namespace Builder

inductive Step
  | name (text : String) (span : Span)
  | typeReference (text : String) (pointerDepth : Nat) (isArray : Bool) (span : Span)
  | variableReference (target : NodeId) (span : Span)
  | parameter (name : NodeId) (type default : Option NodeId) (span : Span)
  | beginFunction
  | function (name : NodeId) (returnType : Option NodeId) (parameters : List NodeId)
      (body : Option NodeId) (span : Span)
  | funDirective (function : NodeId) (exported : Bool) (span : Span)
  | varDirective (name : NodeId) (type value : Option NodeId) (exported : Bool) (span : Span)
  | constDirective (name : NodeId) (type : Option NodeId) (value : NodeId) (exported : Bool)
      (span : Span)
  | typeDirective (name valueType : NodeId) (exported : Bool) (span : Span)
  | typeBody (span : Span)
  | overloads (text : String) (members : List NodeId)
  | literal (value : Literal) (span : Span)
  | literalFromSource (kind : LiteralKind) (span : Span)
  | call (callee : NodeId) (arguments : List NodeId) (isOperator : Bool) (span : Span)
  | binary (left : NodeId) (operator : String) (right : NodeId) (span : Span)
  | unary (operator : String) (operand : NodeId) (span : Span)
  | complement (operand : NodeId) (span : Span)
  | negation (operand : NodeId) (span : Span)
  | parenthesized (node : NodeId)
  | conditionArm (name condition body : NodeId) (span : Span)
  | literalArm (value body : NodeId) (span : Span)
  | defaultArm (body : NodeId) (span : Span)
  | matching (scrutinee : NodeId) (arms : List NodeId) (span : Span)
  | parseError (error : ParseError)
  deriving DecidableEq

/-- **Does a step**; the answer is the node it makes, if it makes one. -/
def perform : Step → Action (Option NodeId)
  | .name text span => some <$> Builder.name text span
  | .typeReference text pointerDepth isArray span =>
      some <$> Builder.typeReference text pointerDepth isArray span
  | .variableReference target span => some <$> Builder.variableReference target span
  | .parameter name type default span => some <$> Builder.parameter name type default span
  | .beginFunction => (fun _ => none) <$> Builder.beginFunction
  | .function name returnType parameters body span =>
      some <$> Builder.function name returnType parameters body span
  | .funDirective function exported span => some <$> Builder.funDirective function exported span
  | .varDirective name type value exported span =>
      some <$> Builder.varDirective name type value exported span
  | .constDirective name type value exported span =>
      some <$> Builder.constDirective name type value exported span
  | .typeDirective name valueType exported span =>
      some <$> Builder.typeDirective name valueType exported span
  | .typeBody span => some <$> Builder.typeBody span
  | .overloads text members => some <$> Builder.overloads text members
  | .literal value span => some <$> Builder.literal value span
  | .literalFromSource kind span => some <$> Builder.literalFromSource kind span
  | .call callee arguments isOperator span =>
      some <$> Builder.call callee arguments isOperator span
  | .binary left operator right span => some <$> Builder.binary left operator right span
  | .unary operator operand span => some <$> Builder.unary operator operand span
  | .complement operand span => some <$> Builder.complement operand span
  | .negation operand span => some <$> Builder.negation operand span
  | .parenthesized node => some <$> Builder.parenthesized node
  | .conditionArm name condition body span =>
      some <$> Builder.conditionArm name condition body span
  | .literalArm value body span => some <$> Builder.literalArm value body span
  | .defaultArm body span => some <$> Builder.defaultArm body span
  | .matching scrutinee arms span => some <$> Builder.matching scrutinee arms span
  | .parseError error => (fun _ => none) <$> Builder.parseError error

def after (b : Builder) (step : Step) : Builder :=
  match perform step b with
  | .ok _ c => c
  | .error _ c => c

def runAll (b : Builder) (steps : List Step) : Builder := steps.foldl after b

theorem runAll_append (b : Builder) (first second : List Step) :
    runAll b (first ++ second) = runAll (runAll b first) second :=
  List.foldl_append

end Builder

end SyntaxForest
