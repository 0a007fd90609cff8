/-
**Binary floating point of 64 bits.**

A float is its bits: a sign, eleven exponent bits and fifty-two fraction bits.  Apart from its
sign a finite float is a whole number of *units*, the unit being `2 ^ (-1074)`, the least positive
float.  `Binary64.round` takes a quotient of two natural numbers to the nearest float, a tie going
to the float whose last bit is even, and takes what is too large to infinity.

Main definitions:

* `Binary64`, `Binary64.magnitude`, `Binary64.isNegative` — a float, its bits without the sign,
  and its sign;
* `Binary64.units` — the value of a finite magnitude, counted in the least positive float;
* `Binary64.divideToEven` — a quotient rounded to the nearest integer;
* `Binary64.round` — the magnitude nearest to a quotient.

Main results:

* `Binary64.ofMagnitude_magnitude` — a float is its sign and its magnitude;
* `Binary64.divideToEven_exact` — an exact quotient is not rounded.
-/

set_option relaxedAutoImplicit false
set_option autoImplicit false

namespace SyntaxForest

/-- A binary floating-point number of 64 bits. -/
structure Binary64 where
  /-- The sign bit, eleven exponent bits and fifty-two fraction bits. -/
  bits : UInt64
  deriving DecidableEq, Inhabited

namespace Binary64

def signWeight : Nat := 0x8000000000000000

/-- The magnitude of infinity; larger magnitudes are not numbers. -/
def infinity : Nat := 0x7ff0000000000000

/-- The magnitude that stands for "not a number" when it is read from text. -/
def quietNaN : Nat := 0x7ff8000000000000

def exponentWeight : Nat := 0x10000000000000

def magnitude (x : Binary64) : Nat := x.bits.toNat % signWeight

def isNegative (x : Binary64) : Bool := signWeight ≤ x.bits.toNat

/-- The float with a sign and a magnitude. -/
def ofMagnitude (negative : Bool) (magnitude : Nat) : Binary64 :=
  ⟨UInt64.ofNat (if negative then signWeight + magnitude else magnitude)⟩

/-- A float that is not a number. -/
def isNaN (x : Binary64) : Bool := infinity < x.magnitude

/-- The value of a finite magnitude in units of `2 ^ (-1074)`. -/
def units (magnitude : Nat) : Nat :=
  if magnitude < exponentWeight then magnitude
  else (exponentWeight + magnitude % exponentWeight) <<< (magnitude / exponentWeight - 1)

/-- The number of units in one. -/
def unitsPerOne : Nat := 1 <<< 1074

/-- The integer nearest to a quotient, the even one of two that are equally near. -/
def divideToEven (num den : Nat) : Nat :=
  let quotient := num / den
  let twice := 2 * (num % den)
  if den < twice ∨ (twice = den ∧ quotient % 2 = 1) then quotient + 1 else quotient

/-- The magnitude of the float nearest to a quotient, infinity if it is too large.  The magnitude
of the float `m * 2 ^ k` units, with `m` of at most 53 bits, is `k * 2 ^ 52 + m`, also when
rounding carries `m` to 54 bits. -/
def round (num den : Nat) : Nat :=
  let scaled := num * unitsPerOne
  -- Below `2 ^ 53` units every integer is a float, so the subtraction stops at zero there.
  let k := (scaled / den).log2 - 52
  min (k * exponentWeight + divideToEven scaled (den <<< k)) infinity

/-! ### Sign and magnitude -/

theorem ofMagnitude_magnitude (x : Binary64) : ofMagnitude x.isNegative x.magnitude = x := by
  have bound := x.bits.toNat_lt
  have value : (if x.isNegative then signWeight + x.magnitude else x.magnitude)
      = x.bits.toNat := by
    by_cases h : signWeight ≤ x.bits.toNat
    · rw [if_pos (by simpa [isNegative] using h), magnitude, signWeight] at *
      omega
    · rw [if_neg (by simpa [isNegative] using h), magnitude, signWeight] at *
      omega
  rw [ofMagnitude, value, UInt64.ofNat_toNat]

theorem divideToEven_exact (n : Nat) {den : Nat} (h : 0 < den) :
    divideToEven (n * den) den = n := by
  have quotient : n * den / den = n := Nat.mul_div_cancel n h
  have remainder : n * den % den = 0 := Nat.mul_mod_left n den
  simp only [divideToEven, quotient, remainder]
  rw [if_neg (by omega)]

end Binary64

end SyntaxForest
