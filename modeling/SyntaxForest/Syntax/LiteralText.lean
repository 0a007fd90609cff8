/-
**The text of literals.**

A literal is written in one way and read in several.  White space around it is left aside, and so
are the underscores that group the digits of a number.  An integer is a sign, then a hexadecimal
prefix or none, then a signed numeral in that radix; the sign before the prefix is put in front of
the numeral, so a numeral may bring a sign of its own only if no minus sign stands before it.

Main definitions:

* `Literal.integerOf?`, `Literal.read?` — the value of a text, read as an integer or as a literal
  of a kind;
* `Literal.parse` — the same, with the refusal that a bad text meets;
* `Literal.render` — the text of a value;
* `Literal.describe` — a value as a listing of values shows it.

Main results:

* `Literal.parse_eq_ok_iff`, `Literal.parse_eq_error_iff` — a text is refused, whole and as it
  stands, exactly when it has no value.
-/

import SyntaxForest.Numeral.Shortest
import SyntaxForest.Refusal
import SyntaxForest.Text.Blank

set_option relaxedAutoImplicit false
set_option autoImplicit false

namespace SyntaxForest

namespace Literal

/-- A text without underscores. -/
def ungroup (text : List Char) : List Char :=
  text.filter (· ≠ '_')

/-- The digits after a hexadecimal prefix. -/
def afterHexMark? : List Char → Option (List Char)
  | '0' :: 'x' :: rest => some rest
  | '0' :: 'X' :: rest => some rest
  | _ => none

/-- The value of a numeral in the radix that its prefix tells, a minus sign put before it if
`minus` holds. -/
def numeral? (minus : Bool) (text : List Char) : Option Int64 :=
  let sign := if minus then ['-'] else []
  match afterHexMark? text with
  | some digits => Numeral.signed? 16 (sign ++ digits)
  | none => Numeral.signed? 10 (sign ++ text)

/-- The value of a text, blanks and underscores left aside, as an integer. -/
def integerOf? : List Char → Option Int64
  | '-' :: rest => numeral? true rest
  | '+' :: rest => numeral? false rest
  | text => numeral? false text

/-- The value of a text as a literal of a kind. -/
def read? (kind : LiteralKind) (text : List Char) : Option Literal :=
  let inner := Text.trim text
  match kind with
  | .integer => (integerOf? (ungroup inner)).map integer
  | .float => (Binary64.read? (ungroup inner)).map float
  | .boolean =>
      if inner = "true".toList then some (boolean true)
      else if inner = "false".toList then some (boolean false)
      else none
  | .null => if inner = "null".toList then some null else none

/-- The value of a text as a literal of a kind, or the refusal of the text. -/
def parse (kind : LiteralKind) (text : String) : Except Refusal Literal :=
  match read? kind text.toList with
  | some value => .ok value
  | none => .error (.invalidLiteral kind text)

def render : Literal → String
  | integer value => String.ofList (Numeral.decimalText value.toInt)
  | float value => String.ofList value.text
  | boolean true => "true"
  | boolean false => "false"
  | null => "null"

/-- A value as a listing of values shows it. -/
def describe : Literal → String
  | integer value => "Integer(" ++ (integer value).render ++ ")"
  | float value => "Float(" ++ (float value).render ++ ")"
  | boolean value => "Boolean(" ++ (boolean value).render ++ ")"
  | null => "Null"

/-! ### Refused texts -/

theorem parse_eq_ok_iff {kind : LiteralKind} {text : String} {value : Literal} :
    parse kind text = .ok value ↔ read? kind text.toList = some value := by
  unfold parse
  cases read? kind text.toList <;> simp

theorem parse_eq_error_iff {kind : LiteralKind} {text : String} {refusal : Refusal} :
    parse kind text = .error refusal
      ↔ read? kind text.toList = none ∧ refusal = .invalidLiteral kind text := by
  unfold parse
  cases read? kind text.toList <;> simp [eq_comm]

end Literal

end SyntaxForest
