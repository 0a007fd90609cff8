/-
**The shortest text of a float.**

A float is written with the fewest decimal digits that read back as the same float; of two such
decimals the nearer is taken, and of two equally near ones the larger.  `Shortest.decimal` finds
it on the grids of one, two, up to seventeen significant digits: on each grid only the two
neighbours of the value can be nearest to it, and a neighbour is accepted if `Decimal.nearest`
takes it back to the float.  The text is positional from `0.0001` up to below `10 ^ 16`, with at
least one digit on either side of the point, and has an exponent elsewhere.

Main definitions:

* `Shortest.neighbours` — the neighbours of a value on a decimal grid, the nearer first;
* `Shortest.decimal` — the shortest decimal that reads back;
* `Shortest.layout` — digits and the place of the point, written out;
* `Binary64.text` — the text of a float.

Main results:

* `Shortest.nearest_of_pick` — a decimal chosen on a grid reads back.
-/

import SyntaxForest.Numeral.Decimal

set_option relaxedAutoImplicit false
set_option autoImplicit false

namespace SyntaxForest

namespace Shortest

/-- The value of a magnitude over `10 ^ exponent`, as a quotient of natural numbers. -/
def quotient (magnitude : Nat) (exponent : Int) : Nat × Nat :=
  if 0 ≤ exponent then
    (Binary64.units magnitude, Binary64.unitsPerOne * Nat.pow 10 exponent.toNat)
  else (Binary64.units magnitude * Nat.pow 10 (-exponent).toNat, Binary64.unitsPerOne)

/-- The place of the decimal point before the first significant digit of a finite magnitude that
is not zero: the value is less than `10 ^ point` and not less than `10 ^ (point - 1)`.  The least
positive float is above `10 ^ (-400)`. -/
def point (magnitude : Nat) : Int :=
  let (num, den) := quotient magnitude (-400)
  (Decimal.width (num / den) : Int) - 400

/-- The two multiples of `10 ^ exponent` around a value, the nearer first, the larger first if
they are equally near. -/
def neighbours (magnitude : Nat) (exponent : Int) : List Decimal :=
  let (num, den) := quotient magnitude exponent
  let below : Decimal := ⟨num / den, exponent⟩
  let above : Decimal := ⟨num / den + 1, exponent⟩
  if 2 * (num % den) < den then [below, above] else [above, below]

/-- The nearest multiple of `10 ^ exponent` that reads back, if there is one. -/
def pick (magnitude : Nat) (exponent : Int) : Option Decimal :=
  (neighbours magnitude exponent).find? fun d => d.nearest = magnitude

/-- The value of a finite magnitude with all its digits. -/
def exact (magnitude : Nat) : Decimal :=
  ⟨Binary64.units magnitude * Nat.pow 5 1074, -1074⟩

/-- The decimal with the fewest digits that reads back as a finite magnitude other than zero. -/
def decimal (magnitude : Nat) : Decimal :=
  let point := point magnitude
  ((List.range 17).findSome? fun (size : Nat) => pick magnitude (point - 1 - size)).getD
    (exact magnitude)

/-- A digit string without the zeros at its end. -/
def dropZeros (digits : List Char) : List Char :=
  (digits.reverse.dropWhile (· = '0')).reverse

/-- Significant digits written out, the point standing `point` places after their start. -/
def layout (digits : List Char) (point : Int) : List Char :=
  if point < -3 ∨ 16 < point then
    let fraction := digits.drop 1
    digits.take 1 ++ (if fraction.isEmpty then [] else '.' :: fraction)
      ++ 'e' :: Numeral.decimalText (point - 1)
  else if point ≤ 0 then
    '0' :: '.' :: (List.replicate (-point).toNat '0' ++ digits)
  else if digits.length ≤ point.toNat then
    digits ++ List.replicate (point.toNat - digits.length) '0' ++ ['.', '0']
  else digits.take point.toNat ++ '.' :: digits.drop point.toNat

/-- The text of a decimal other than zero. -/
def write (d : Decimal) : List Char :=
  let digits := Nat.toDigits 10 d.digits
  layout (dropZeros digits) (digits.length + d.exponent)

theorem nearest_of_pick {magnitude : Nat} {exponent : Int} {d : Decimal}
    (h : pick magnitude exponent = some d) : d.nearest = magnitude := by
  simpa using List.find?_some h

end Shortest

namespace Binary64

/-- The text of a magnitude. -/
def magnitudeText (magnitude : Nat) : List Char :=
  if magnitude = infinity then ['i', 'n', 'f']
  else if magnitude = 0 then ['0', '.', '0']
  else Shortest.write (Shortest.decimal magnitude)

def text (x : Binary64) : List Char :=
  if x.isNaN then ['N', 'a', 'N']
  else if x.isNegative then '-' :: magnitudeText x.magnitude
  else magnitudeText x.magnitude

end Binary64

end SyntaxForest
