/-
**Integers as they are written.**

An integer is written as a sign or none, a hexadecimal mark or none, and the digits of its radix, at
least one and as many as one likes, letters in either case.  Underscores may stand anywhere among
these characters.  `Numeral.Written.value` is the integer that is meant: the sum of its digits, each
times the power of the radix that belongs to its place, under the sign.

Main definitions:

* `Numeral.Sign`, `Numeral.Mark`, `Numeral.Digit` — the parts of a written integer;
* `Numeral.Written`, `Numeral.Written.text`, `Numeral.Written.value` — a written integer, its
  characters, and the integer that is meant;
* `Numeral.IsFigure` — a character that is no sign and no part of a mark;
* `Text.Grouped` — a text with underscores put anywhere in it.

Main results:

* `Numeral.natural?_digits` — digits of any radix up to sixteen are read as they are weighed;
* `Numeral.Written.isPlain_text` — a written integer has neither blanks nor underscores;
* `Text.Grouped.filter_eq` — the underscores are all that is added.
-/

import SyntaxForest.Proofs.Numeral.Digits
import Mathlib.Data.Nat.Digits.Defs

set_option relaxedAutoImplicit false
set_option autoImplicit false

namespace SyntaxForest

namespace Numeral

/-! ### The parts of a written integer -/

/-- The sign before a numeral. -/
inductive Sign
  | absent
  | plus
  | minus
  deriving DecidableEq

def Sign.text : Sign → List Char
  | absent => []
  | plus => ['+']
  | minus => ['-']

/-- A natural number under a sign. -/
def Sign.apply : Sign → Nat → Int
  | minus, n => -(n : Int)
  | _, n => n

inductive Mark
  | decimal
  | lowerHex
  | upperHex
  deriving DecidableEq

def Mark.text : Mark → List Char
  | decimal => []
  | lowerHex => ['0', 'x']
  | upperHex => ['0', 'X']

/-- The radix that a mark tells. -/
def Mark.radix : Mark → Nat
  | decimal => 10
  | _ => 16

/-- A digit of a radix, a letter in upper or lower case. -/
structure Digit (radix : Nat) where
  value : Fin radix
  /-- The digit is an upper-case letter, if it is a letter. -/
  isUpper : Bool

/-- The character of a number below sixteen. -/
def digitChar (isUpper : Bool) (n : Nat) : Char :=
  if isUpper then (Nat.digitChar n).toUpper else Nat.digitChar n

def Digit.char {radix : Nat} (d : Digit radix) : Char := digitChar d.isUpper d.value

/-- An integer as it is written. -/
structure Written where
  sign : Sign
  mark : Mark
  /-- The digits, the most significant first. -/
  digits : List (Digit mark.radix)
  digits_ne_nil : digits ≠ []

namespace Written

def digitText (w : Written) : List Char := w.digits.map Digit.char

def text (w : Written) : List Char := w.sign.text ++ (w.mark.text ++ w.digitText)

def magnitude (w : Written) : Nat :=
  Nat.ofDigits w.mark.radix (w.digits.map fun d => d.value.val).reverse

def value (w : Written) : Int := w.sign.apply w.magnitude

end Written

/-! ### Digits -/

/-- A plain character that is neither a sign nor the letter of a mark. -/
def IsFigure (c : Char) : Prop := Text.IsPlain c ∧ (c ≠ '-' ∧ c ≠ '+') ∧ c ≠ 'x' ∧ c ≠ 'X'

instance (c : Char) : Decidable (IsFigure c) := inferInstanceAs (Decidable (_ ∧ _))

theorem isFigure_of_isDigit {c : Char} (h : c.isDigit = true) : IsFigure c := by
  have hunsigned : Text.IsUnsigned [c] := Text.isUnsigned_of_isDigit h
  refine ⟨Text.isPlain_of_isDigit h, Text.isUnsigned_cons.1 hunsigned, ?_⟩
  constructor <;> rintro rfl <;> exact absurd h (by decide)

theorem hexValue?_digitChar : ∀ (isUpper : Bool) (n : Fin 16),
    hexValue? (digitChar isUpper n) = some n.val ∧ IsFigure (digitChar isUpper n) := by
  decide

namespace Digit

variable {radix : Nat}

theorem isFigure_char (bound : radix ≤ 16) (d : Digit radix) : IsFigure d.char :=
  (hexValue?_digitChar d.isUpper (d.value.castLE bound)).2

/-- A digit has its value. -/
theorem digitValue?_char (bound : radix ≤ 16) (d : Digit radix) :
    digitValue? radix d.char = some d.value.val := by
  have hvalue : hexValue? d.char = some d.value.val :=
    (hexValue?_digitChar d.isUpper (d.value.castLE bound)).1
  rw [digitValue?, hvalue]
  exact if_pos d.value.isLt

end Digit

theorem Mark.radix_le (mark : Mark) : mark.radix ≤ 16 := by
  cases mark <;> decide

/-- Digits added up from the left are weighed by their places. -/
theorem value_eq_ofDigits (radix : Nat) (values : List Nat) :
    Numeral.value radix values = Nat.ofDigits radix values.reverse := by
  rw [Nat.ofDigits_eq_foldr, List.foldr_reverse, Numeral.value]
  congr 1
  funext total digit
  rw [Nat.cast_id, Nat.mul_comm, Nat.add_comm]

/-- **Digits are read as they are weighed.** -/
theorem natural?_digits {radix : Nat} (bound : radix ≤ 16) {digits : List (Digit radix)}
    (hne : digits ≠ []) : natural? radix (digits.map Digit.char)
      = some (Nat.ofDigits radix (digits.map fun d => d.value.val).reverse) := by
  have hvalues : ∀ ds : List (Digit radix), (ds.map Digit.char).mapM (digitValue? radix)
      = some (ds.map fun d => d.value.val) := by
    intro ds
    induction ds with
    | nil => rfl
    | cons d ds ih =>
        rw [List.map_cons, List.mapM_cons, d.digitValue?_char bound, ih]
        rfl
  obtain ⟨d, ds, rfl⟩ := List.exists_cons_of_ne_nil hne
  rw [← value_eq_ofDigits]
  exact natural?_eq_value (hvalues (d :: ds))

/-! ### Characters -/

namespace Written

variable (w : Written)

theorem isFigure_digitText : ∀ c ∈ w.digitText, IsFigure c :=
  List.forall_mem_map.2 fun d _ => d.isFigure_char w.mark.radix_le

theorem natural?_digitText : natural? w.mark.radix w.digitText = some w.magnitude :=
  natural?_digits w.mark.radix_le w.digits_ne_nil

/-- A written integer has neither blanks nor underscores. -/
theorem isPlain_text : ∀ c ∈ w.text, Text.IsPlain c := by
  have hsign : ∀ c ∈ w.sign.text, Text.IsPlain c := by
    cases w.sign <;> exact Text.forall_mem_of_all (by decide)
  have hmark : ∀ c ∈ w.mark.text, Text.IsPlain c := by
    cases w.mark <;> exact Text.forall_mem_of_all (by decide)
  have hdigits : ∀ c ∈ w.digitText, Text.IsPlain c := fun c hc => (w.isFigure_digitText c hc).1
  exact List.forall_mem_append.2 ⟨hsign, List.forall_mem_append.2 ⟨hmark, hdigits⟩⟩

end Written

end Numeral

/-! ### Underscores -/

/-- `Grouped plain text`: the text is the plain one with underscores put anywhere in it. -/
inductive Text.Grouped : List Char → List Char → Prop
  | nil : Grouped [] []
  | keep (c : Char) {plain text : List Char} : Grouped plain text → Grouped (c :: plain) (c :: text)
  | underscore {plain text : List Char} : Grouped plain text → Grouped plain ('_' :: text)

namespace Text.Grouped

variable {plain text : List Char}

theorem refl : ∀ text : List Char, Grouped text text
  | [] => .nil
  | c :: rest => .keep c (refl rest)

/-- What is left without the underscores is what was left of the plain text. -/
theorem filter_eq (h : Grouped plain text) :
    text.filter (· ≠ '_') = plain.filter (· ≠ '_') := by
  induction h with
  | nil => rfl
  | keep c _ ih => rw [List.filter_cons, List.filter_cons, ih]
  | underscore _ ih => rw [List.filter_cons, if_neg (by decide), ih]

/-- Underscores are all that is added. -/
theorem eq_or_mem (h : Grouped plain text) : ∀ c ∈ text, c = '_' ∨ c ∈ plain := by
  induction h with
  | nil => exact List.forall_mem_nil _
  | keep c _ ih =>
      refine List.forall_mem_cons.2 ⟨Or.inr List.mem_cons_self, fun d hd => ?_⟩
      exact (ih d hd).imp_right (List.mem_cons_of_mem c)
  | underscore _ ih => exact List.forall_mem_cons.2 ⟨Or.inl rfl, ih⟩

/-- Underscores bring no blanks. -/
theorem isBlank_eq_false (h : Grouped plain text) (hplain : ∀ c ∈ plain, IsPlain c) :
    ∀ c ∈ text, isBlank c = false := by
  intro c hc
  rcases h.eq_or_mem c hc with rfl | hmem
  · rfl
  · exact (hplain c hmem).1

end Text.Grouped

end SyntaxForest
