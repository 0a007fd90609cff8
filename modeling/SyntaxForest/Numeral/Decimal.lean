/-
**Reading floats from decimal text.**

A decimal is a natural number times a power of ten.  Its text is digits, at least one, with at
most one point among or around them, and an optional exponent; `Decimal.read?` refuses everything
else.  A float is read from an optional sign and a decimal, `inf`, `infinity` or `nan`, the words
in any case, and takes the nearest float (see `Binary64.round`).

Main definitions:

* `Decimal`, `Decimal.read?` — a decimal and its text;
* `Decimal.nearest` — the magnitude of the float nearest to a decimal;
* `Binary64.read?` — the float a text denotes.

Main results:

* `Decimal.nearest_of_zero` — zero is read exactly.
-/

import SyntaxForest.Numeral.Integer
import SyntaxForest.Numeral.Binary64

set_option relaxedAutoImplicit false
set_option autoImplicit false

namespace SyntaxForest

/-- A natural number times a power of ten. -/
structure Decimal where
  digits : Nat
  exponent : Int
  deriving DecidableEq, Inhabited

namespace Decimal

def isDigit (c : Char) : Bool := '0' ≤ c && c ≤ '9'

/-- The value of an exponent part, which is empty or a mark, an optional sign and digits. -/
def exponent? : List Char → Option Int
  | [] => some 0
  | mark :: rest =>
      if mark = 'e' ∨ mark = 'E' then
        match rest with
        | '-' :: digits => (Numeral.natural? 10 digits).map fun n => -(n : Int)
        | '+' :: digits => (Numeral.natural? 10 digits).map fun n => (n : Int)
        | digits => (Numeral.natural? 10 digits).map fun n => (n : Int)
      else none

/-- The digits after a point, and what follows them. -/
def splitFraction : List Char → List Char × List Char
  | '.' :: rest => (rest.takeWhile isDigit, rest.dropWhile isDigit)
  | rest => ([], rest)

/-- The decimal an unsigned text denotes. -/
def read? (text : List Char) : Option Decimal :=
  let whole := text.takeWhile isDigit
  let (fraction, rest) := splitFraction (text.dropWhile isDigit)
  match Numeral.natural? 10 (whole ++ fraction), exponent? rest with
  | some digits, some exponent => some ⟨digits, exponent - fraction.length⟩
  | _, _ => none

/-- The decimal number of digits of a natural number. -/
def width (n : Nat) : Nat := (Nat.toDigits 10 n).length

/-- The magnitude of the float nearest to a decimal.  A decimal of `10 ^ 310` or more is beyond
every float, and one below `10 ^ (-330)` is nearer to zero than to any other float, so the power
of ten is computed only between them. -/
def nearest (d : Decimal) : Nat :=
  if d.digits = 0 then 0
  else if d.exponent + width d.digits > 310 then Binary64.infinity
  else if d.exponent + width d.digits < -330 then 0
  else if 0 ≤ d.exponent then Binary64.round (d.digits * Nat.pow 10 d.exponent.toNat) 1
  else Binary64.round d.digits (Nat.pow 10 (-d.exponent).toNat)

theorem nearest_of_zero (exponent : Int) : nearest ⟨0, exponent⟩ = 0 := rfl

end Decimal

namespace Binary64

/-- The magnitude an unsigned text denotes. -/
def readMagnitude? (text : List Char) : Option Nat :=
  match Decimal.read? text with
  | some d => some d.nearest
  | none =>
      let word := String.ofList (text.map Char.toLower)
      if word = "inf" ∨ word = "infinity" then some infinity
      else if word = "nan" then some quietNaN
      else none

/-- The float a text denotes. -/
def read? : List Char → Option Binary64
  | '-' :: rest => (readMagnitude? rest).map (ofMagnitude true)
  | '+' :: rest => (readMagnitude? rest).map (ofMagnitude false)
  | text => (readMagnitude? text).map (ofMagnitude false)

end Binary64

end SyntaxForest
