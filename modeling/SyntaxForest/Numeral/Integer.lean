/-
**Reading and writing signed integers.**

The integers of the language are the signed 64-bit ones.  A digit string has a value in any radix
up to sixteen, however long it is; a signed numeral is an optional sign and at least one digit,
and is read only if its value is in the signed 64-bit range, so no value wraps.

Main definitions:

* `Numeral.digitValue?` — the value of a digit character in a radix;
* `Numeral.natural?` — the value of a non-empty digit string;
* `Numeral.ofInt?` — a value in the signed 64-bit range;
* `Numeral.signed?` — the value of a signed numeral;
* `Numeral.decimalText` — the decimal text of an integer.

Main results:

* `Numeral.natural?_eq_value` — a digit string has the value of its digits;
* `Numeral.toInt_of_ofInt?` — a value that fits is kept.
-/

set_option relaxedAutoImplicit false
set_option autoImplicit false

namespace SyntaxForest

namespace Numeral

/-- The value of a character as a hexadecimal digit, of either case. -/
def hexValue? (c : Char) : Option Nat :=
  let code := c.toNat
  if 0x30 ≤ code ∧ code ≤ 0x39 then some (code - 0x30)
  else if 0x61 ≤ code ∧ code ≤ 0x66 then some (code - 0x61 + 10)
  else if 0x41 ≤ code ∧ code ≤ 0x46 then some (code - 0x41 + 10)
  else none

/-- The value of a character as a digit in a radix of at most sixteen. -/
def digitValue? (radix : Nat) (c : Char) : Option Nat :=
  match hexValue? c with
  | none => none
  | some value => if value < radix then some value else none

/-- The value of a digit string after the digits whose value is `total`. -/
def continue? (radix : Nat) : Nat → List Char → Option Nat
  | total, [] => some total
  | total, c :: rest =>
      match digitValue? radix c with
      | none => none
      | some value => continue? radix (total * radix + value) rest

/-- The value of a non-empty digit string. -/
def natural? (radix : Nat) : List Char → Option Nat
  | [] => none
  | c :: rest => continue? radix 0 (c :: rest)

/-- A value as a signed 64-bit integer, if it is one. -/
def ofInt? (value : Int) : Option Int64 :=
  if Int64.minValue.toInt ≤ value ∧ value ≤ Int64.maxValue.toInt then some (Int64.ofInt value)
  else none

/-- The value of a numeral with an optional sign, if it is in range. -/
def signed? (radix : Nat) : List Char → Option Int64
  | '-' :: digits => (natural? radix digits).bind fun n => ofInt? (-(n : Int))
  | '+' :: digits => (natural? radix digits).bind fun n => ofInt? n
  | digits => (natural? radix digits).bind fun n => ofInt? n

/-- The decimal digits of an integer, after a minus sign if it is negative. -/
def decimalText (value : Int) : List Char :=
  if value < 0 then '-' :: Nat.toDigits 10 value.natAbs else Nat.toDigits 10 value.natAbs

/-! ### Values -/

/-- The value of a list of digit values, most significant first. -/
def value (radix : Nat) (digits : List Nat) : Nat :=
  digits.foldl (fun total digit => total * radix + digit) 0

theorem continue?_eq_foldl {radix : Nat} {cs : List Char} {digits : List Nat} {total : Nat}
    (h : cs.mapM (digitValue? radix) = some digits) :
    continue? radix total cs
      = some (digits.foldl (fun total digit => total * radix + digit) total) := by
  induction cs generalizing digits total with
  | nil =>
      have : digits = [] := by simpa using h.symm
      subst this
      rfl
  | cons c cs ih =>
      rw [List.mapM_cons] at h
      cases hc : digitValue? radix c with
      | none => simp [hc] at h
      | some digit =>
          cases hcs : cs.mapM (digitValue? radix) with
          | none => simp [hc, hcs] at h
          | some rest =>
              have : digits = digit :: rest := by simpa [hc, hcs] using h.symm
              subst this
              simp only [continue?, hc, List.foldl_cons]
              exact ih hcs

theorem natural?_eq_value {radix : Nat} {c : Char} {cs : List Char} {digits : List Nat}
    (h : (c :: cs).mapM (digitValue? radix) = some digits) :
    natural? radix (c :: cs) = some (value radix digits) :=
  continue?_eq_foldl h

theorem toInt_of_ofInt? {n : Int} {word : Int64} (h : ofInt? n = some word) :
    word.toInt = n := by
  unfold ofInt? at h
  split at h
  · next range =>
    have hword : Int64.ofInt n = word := Option.some.inj h
    rw [Int64.toInt_minValue, Int64.toInt_maxValue] at range
    rw [← hword, Int64.toInt_ofInt_of_le (by omega) (by omega)]
  · simp at h

end Numeral

end SyntaxForest
