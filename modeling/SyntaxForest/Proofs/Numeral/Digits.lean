/-
**Decimal digits are read as they are written.**

A natural number is written with its decimal digits, and a string of decimal digits is read from
left to right.  Zeros in front of the digits of a number do not count, and a zero after them is a
factor of ten.

Main definitions:

* `Text.IsPlain`, `Text.IsUnsigned` — a character that is no blank and no underscore, and a text
  that does not start with a sign.

Main results:

* `Numeral.natural?_of_isDigit` — the value of a string of decimal digits;
* `Numeral.natural?_toDigits` — **the digits of a number are read as the number**;
* `Numeral.toDigits_mul_pow` — the digits of a number times a power of ten;
* `Numeral.toDigits_eq_concat` — the last digit of a number;
* `Numeral.exists_mul_pow` — a number is one that does not end in zero times a power of ten.
-/

import SyntaxForest.Numeral.Integer
import SyntaxForest.Text.Blank
import Mathlib.Algebra.Order.Ring.Nat
import Mathlib.Data.Nat.Multiplicity

set_option relaxedAutoImplicit false
set_option autoImplicit false

namespace SyntaxForest

/-! ### Plain characters -/

namespace Text

/-- A character that is neither a blank nor an underscore. -/
def IsPlain (c : Char) : Prop := isBlank c = false ∧ c ≠ '_'

instance (c : Char) : Decidable (IsPlain c) := inferInstanceAs (Decidable (_ ∧ _))

/-- What is true of all characters of a text is decided by going through the text, and not through
all the characters there are. -/
theorem forall_mem_of_all {p : Char → Prop} [DecidablePred p] {text : List Char}
    (h : text.all (fun c => decide (p c)) = true) : ∀ c ∈ text, p c :=
  fun c hc => of_decide_eq_true (List.all_eq_true.1 h c hc)

/-- A decimal digit is plain. -/
theorem isPlain_of_isDigit {c : Char} (h : c.isDigit = true) : IsPlain c := by
  obtain ⟨hlow, hhigh⟩ := Bool.and_eq_true_iff.1 h
  have hlow : 0x30 ≤ c.toNat := of_decide_eq_true hlow
  have hhigh : c.toNat ≤ 0x39 := of_decide_eq_true hhigh
  refine ⟨?_, ?_⟩
  · simp only [isBlank, Bool.or_eq_false_iff, Bool.and_eq_false_iff, decide_eq_false_iff_not,
      beq_eq_false_iff_ne]
    omega
  · rintro rfl
    exact absurd hhigh (by decide)

theorem trim_of_isBlank_eq_false {text : List Char} (h : ∀ c ∈ text, isBlank c = false) :
    trim text = text :=
  trim_eq_self (fun c hc => h c (List.mem_of_mem_head? hc))
    fun c hc => h c (List.mem_of_mem_getLast? hc)

/-- A text that does not start with a sign. -/
def IsUnsigned (text : List Char) : Prop := ∀ c ∈ text.head?, c ≠ '-' ∧ c ≠ '+'

theorem isUnsigned_cons {c : Char} {rest : List Char} :
    IsUnsigned (c :: rest) ↔ c ≠ '-' ∧ c ≠ '+' :=
  ⟨fun h => h c rfl, fun h _ hd => Option.some.inj hd ▸ h⟩

theorem isUnsigned_of_isDigit {c : Char} {rest : List Char} (h : c.isDigit = true) :
    IsUnsigned (c :: rest) := by
  rw [isUnsigned_cons]
  constructor <;> rintro rfl <;> exact absurd h (by decide)

end Text

/-! ### Strings of digits -/

namespace Numeral

variable {c : Char} {cs : List Char} {n : Nat}

/-- A decimal digit has its value in radix ten. -/
theorem digitValue?_of_isDigit (h : c.isDigit = true) :
    digitValue? 10 c = some (c.toNat - '0'.toNat) := by
  have hrange : 0x30 ≤ c.toNat ∧ c.toNat ≤ 0x39 := by
    have hboth := Bool.and_eq_true_iff.1 h
    exact ⟨of_decide_eq_true hboth.1, of_decide_eq_true hboth.2⟩
  have hzero : '0'.toNat = 0x30 := rfl
  rw [digitValue?, hexValue?, if_pos hrange, hzero]
  exact if_pos (by omega)

theorem continue?_of_isDigit (h : ∀ c ∈ cs, c.isDigit = true) (total : Nat) :
    continue? 10 total cs = some (Nat.ofDigitChars 10 cs total) := by
  induction cs generalizing total with
  | nil => rw [continue?, Nat.ofDigitChars_nil]
  | cons c rest ih =>
      rw [continue?, digitValue?_of_isDigit (h c List.mem_cons_self), Nat.ofDigitChars_cons,
        Nat.mul_comm]
      exact ih (fun d hd => h d (List.mem_cons_of_mem c hd)) _

/-- **The value of a string of decimal digits.** -/
theorem natural?_of_isDigit (h : ∀ c ∈ cs, c.isDigit = true) (some_digit : cs ≠ []) :
    natural? 10 cs = some (Nat.ofDigitChars 10 cs 0) := by
  cases cs with
  | nil => exact absurd rfl some_digit
  | cons c rest => exact continue?_of_isDigit h 0

theorem isDigit_of_mem_toDigits (h : c ∈ Nat.toDigits 10 n) : c.isDigit = true :=
  Nat.isDigit_of_mem_toDigits (by decide) (by decide) h

theorem toDigits_ne_nil (n : Nat) : Nat.toDigits 10 n ≠ [] :=
  List.ne_nil_of_length_pos Nat.length_toDigits_pos

theorem exists_toDigits_eq_cons (n : Nat) :
    ∃ c rest, Nat.toDigits 10 n = c :: rest ∧ c.isDigit = true := by
  obtain ⟨c, rest, hdigits⟩ := List.exists_cons_of_ne_nil (toDigits_ne_nil n)
  exact ⟨c, rest, hdigits, isDigit_of_mem_toDigits (hdigits ▸ List.mem_cons_self)⟩

theorem isUnsigned_toDigits (n : Nat) : Text.IsUnsigned (Nat.toDigits 10 n) := by
  obtain ⟨c, rest, hdigits, hc⟩ := exists_toDigits_eq_cons n
  rw [hdigits]
  exact Text.isUnsigned_of_isDigit hc

/-- **The digits of a number are read as the number.** -/
theorem natural?_toDigits (n : Nat) : natural? 10 (Nat.toDigits 10 n) = some n := by
  rw [natural?_of_isDigit (fun c => isDigit_of_mem_toDigits) (toDigits_ne_nil n),
    Nat.ofDigitChars_toDigits (by decide) (by decide)]

/-- The text of an integer is plain. -/
theorem isPlain_decimalText (e : Int) : ∀ c ∈ decimalText e, Text.IsPlain c := by
  have hdigits : ∀ c ∈ Nat.toDigits 10 e.natAbs, Text.IsPlain c :=
    fun c hc => Text.isPlain_of_isDigit (isDigit_of_mem_toDigits hc)
  rw [decimalText]
  split
  · exact List.forall_mem_cons.2 ⟨by decide, hdigits⟩
  · exact hdigits

/-- The digits of a number times a power of ten. -/
theorem toDigits_mul_pow (positive : 0 < n) (k : Nat) :
    Nat.toDigits 10 (n * 10 ^ k) = Nat.toDigits 10 n ++ List.replicate k '0' := by
  induction k with
  | zero => rw [Nat.pow_zero, Nat.mul_one, List.replicate_zero, List.append_nil]
  | succ k ih =>
      have hpositive : 0 < n * 10 ^ k := Nat.mul_pos positive (Nat.pow_pos (by decide))
      calc Nat.toDigits 10 (n * 10 ^ (k + 1))
          = Nat.toDigits 10 (10 * (n * 10 ^ k) + 0) := by
            rw [Nat.pow_succ, ← Nat.mul_assoc, Nat.mul_comm 10, Nat.add_zero]
        _ = Nat.toDigits 10 (n * 10 ^ k) ++ ['0'] :=
            (Nat.toDigits_append_toDigits (by decide) hpositive (by decide)).symm
        _ = Nat.toDigits 10 n ++ List.replicate (k + 1) '0' := by
            rw [ih, List.append_assoc, List.replicate_succ']

/-- The last digit of a number is its remainder. -/
theorem toDigits_eq_concat (n : Nat) :
    ∃ earlier, Nat.toDigits 10 n = earlier ++ [Nat.digitChar (n % 10)] := by
  rw [Nat.toDigits_eq_if (by decide)]
  split
  · next hlt => exact ⟨[], by rw [Nat.mod_eq_of_lt hlt, List.nil_append]⟩
  · exact ⟨_, rfl⟩

theorem exists_mul_pow (positive : 0 < n) : ∃ s k, n = s * 10 ^ k ∧ s % 10 ≠ 0 := by
  obtain ⟨k, s, hs, hn⟩ := Nat.exists_eq_pow_mul_and_not_dvd (Nat.ne_of_gt positive) 10 (by decide)
  exact ⟨s, k, by rw [hn, Nat.mul_comm], fun h => hs (Nat.dvd_of_mod_eq_zero h)⟩

end Numeral

end SyntaxForest
