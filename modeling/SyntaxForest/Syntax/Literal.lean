/-
**Literals.**

A literal node holds its value: a signed 64-bit integer, a float, a truth value, or null.

Main definitions:

* `LiteralKind`, `Literal` — the kinds of literals and their values;
* `Literal.kind`, `Literal.integer?`, `Literal.float?`, `Literal.boolean?` — the kind of a value,
  and the value if it is of a kind;
* `Literal.tag` — the sort of the node that holds a value.

Main results:

* `Literal.tag_eq_iff` — the sort of the node is the kind of the value.
-/

import SyntaxForest.Numeral.Binary64
import SyntaxForest.Syntax.Tag

set_option relaxedAutoImplicit false
set_option autoImplicit false

namespace SyntaxForest

inductive LiteralKind
  | integer
  | float
  | boolean
  | null
  deriving DecidableEq, Inhabited

def LiteralKind.name : LiteralKind → String
  | integer => "integer"
  | float => "float"
  | boolean => "boolean"
  | null => "null"

instance : ToString LiteralKind := ⟨LiteralKind.name⟩

/-- The value of a literal. -/
inductive Literal
  | integer (value : Int64)
  | float (value : Binary64)
  | boolean (value : Bool)
  | null
  deriving DecidableEq, Inhabited

namespace Literal

def kind : Literal → LiteralKind
  | integer _ => .integer
  | float _ => .float
  | boolean _ => .boolean
  | null => .null

def integer? : Literal → Option Int64
  | integer value => some value
  | _ => none

def float? : Literal → Option Binary64
  | float value => some value
  | _ => none

def boolean? : Literal → Option Bool
  | boolean value => some value
  | _ => none

/-- The sort of the node that holds a value. -/
def tag : Literal → Tag
  | integer _ => .integerLiteral
  | float _ => .floatLiteral
  | boolean _ => .booleanLiteral
  | null => .nullLiteral

theorem tag_eq_iff (a b : Literal) : a.tag = b.tag ↔ a.kind = b.kind := by
  cases a <;> cases b <;> simp [tag, kind]

end Literal

end SyntaxForest
