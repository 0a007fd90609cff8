/-
**Tags.**

A tag says what sort of node a node is, without its contents.  Tags fall into categories: a slot
of a node admits a tag or a category.

Main definitions:

* `Tag`, `Tag.all`, `Tag.name` — the sorts of nodes, in their order, with their printed names;
* `Tag.isDirective`, `Tag.isFunction`, `Tag.isLiteral`, `Tag.isArm`, `Tag.isExpression` — the
  categories.
-/

set_option relaxedAutoImplicit false
set_option autoImplicit false

namespace SyntaxForest

/-- The sort of a node. -/
inductive Tag
  | document
  | nameIdentifier
  | typeReference
  | variableReference
  | parameter
  | function
  | specialized
  | funDirective
  | overloads
  | varDirective
  | constDirective
  | typeDirective
  | typeBody
  | integerLiteral
  | floatLiteral
  | booleanLiteral
  | nullLiteral
  | call
  | binary
  | unary
  | complement
  | negation
  | conditionArm
  | literalArm
  | defaultArm
  | matching
  deriving DecidableEq, Inhabited

namespace Tag

def all : List Tag :=
  [document, nameIdentifier, typeReference, variableReference, parameter, function, specialized,
    funDirective, overloads, varDirective, constDirective, typeDirective, typeBody,
    integerLiteral, floatLiteral, booleanLiteral, nullLiteral, call, binary, unary, complement,
    negation, conditionArm, literalArm, defaultArm, matching]

def name : Tag → String
  | document => "DocumentNode"
  | nameIdentifier => "NameIdentifierNode"
  | typeReference => "TypeReferenceNode"
  | variableReference => "VariableReferenceNode"
  | parameter => "ParameterNode"
  | function => "FunctionNode"
  | specialized => "ContextAwareFunction"
  | funDirective => "FunDirectiveNode"
  | overloads => "OverloadedFunctionNode"
  | varDirective => "VarDirectiveNode"
  | constDirective => "ConstDirectiveNode"
  | typeDirective => "TypeDirectiveNode"
  | typeBody => "TypeNode"
  | integerLiteral => "IntegerLiteral"
  | floatLiteral => "FloatLiteral"
  | booleanLiteral => "BooleanLiteral"
  | nullLiteral => "NullLiteral"
  | call => "FunctionCallNode"
  | binary => "BinaryExpressionNode"
  | unary => "UnaryExpressionNode"
  | complement => "BooleanNegNode"
  | negation => "NumberNegNode"
  | conditionArm => "MatchConditionNode"
  | literalArm => "MatchLiteralNode"
  | defaultArm => "MatchDefaultNode"
  | matching => "MatchNode"

instance : ToString Tag := ⟨name⟩

/-- Declarations that stand at the top level. -/
def isDirective : Tag → Bool
  | funDirective | overloads | varDirective | constDirective | typeDirective => true
  | _ => false

def isFunction : Tag → Bool
  | function | specialized => true
  | _ => false

def isLiteral : Tag → Bool
  | integerLiteral | floatLiteral | booleanLiteral | nullLiteral => true
  | _ => false

def isArm : Tag → Bool
  | conditionArm | literalArm | defaultArm => true
  | _ => false

/-- Whatever may stand where an expression is wanted. -/
def isExpression : Tag → Bool
  | variableReference | function | specialized | call | binary | unary | complement | negation
  | matching => true
  | tag => tag.isLiteral || tag.isArm

end Tag

end SyntaxForest
