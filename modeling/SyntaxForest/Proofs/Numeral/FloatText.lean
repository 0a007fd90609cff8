/-
**A float is read back from its text.**

The text of a float is laid out in one of four ways: with an exponent, with zeros before its digits,
with zeros after them, or with the point among them.  In each of them the reader finds a decimal of
the same value, though not the same decimal: zeros that fill up a whole number are digits when they
are read.  Since the nearest float depends on the value alone, it is the float that was written.

Main definitions:

* `Binary64.Legible` — what is known of the text of a magnitude.

Main results:

* `Decimal.read?_point`, `Decimal.read?_mark` — what a text with and without a point denotes;
* `Shortest.exists_read?_layout` — **digits are read with their value, however they are laid out**;
* `Binary64.read?_text` — **a float is read back from its text**;
* `Binary64.exists_read?_text_of_isNaN` — what is not a number is read back as not a number;
* `Binary64.isPlain_of_mem_text` — the text of a float consists of plain characters.
-/

import SyntaxForest.Proofs.Numeral.Rounding

set_option relaxedAutoImplicit false
set_option autoImplicit false

namespace SyntaxForest

/-! ### Reading the parts of a text -/

namespace Decimal

variable {whole fraction mark : List Char} {n : Nat} {e : Int}

/-- The digits at the start of a text are cut off where they end. -/
theorem span_isDigit {digits rest : List Char} (hdigits : ∀ c ∈ digits, c.isDigit = true)
    (hrest : ∀ c ∈ rest.head?, c.isDigit = false) :
    (digits ++ rest).takeWhile isDigit = digits ∧ (digits ++ rest).dropWhile isDigit = rest := by
  have hstop : rest.takeWhile isDigit = [] ∧ rest.dropWhile isDigit = rest := by
    cases rest with
    | nil => exact ⟨rfl, rfl⟩
    | cons c later =>
        have hc : ¬ isDigit c = true := Bool.eq_false_iff.1 (hrest c rfl)
        exact ⟨List.takeWhile_cons_of_neg hc, List.dropWhile_cons_of_neg hc⟩
  have hall : ∀ c ∈ digits, isDigit c = true := hdigits
  rw [List.takeWhile_append_of_pos hall, List.dropWhile_append_of_pos hall, hstop.1, hstop.2,
    List.append_nil]
  exact ⟨rfl, rfl⟩

/-- **What a text with a point denotes.** -/
theorem read?_point (hwhole : ∀ c ∈ whole, c.isDigit = true)
    (hfraction : ∀ c ∈ fraction, c.isDigit = true) (hmark : ∀ c ∈ mark.head?, c.isDigit = false)
    (hn : Numeral.natural? 10 (whole ++ fraction) = some n) (he : exponent? mark = some e) :
    read? (whole ++ '.' :: (fraction ++ mark)) = some ⟨n, e - fraction.length⟩ := by
  have hpoint : ∀ c ∈ ('.' :: (fraction ++ mark)).head?, c.isDigit = false := by
    intro c hc
    obtain rfl := Option.some.inj hc
    rfl
  obtain ⟨htake, hdrop⟩ := span_isDigit hwhole hpoint
  obtain ⟨htake', hdrop'⟩ := span_isDigit hfraction hmark
  simp only [read?, htake, hdrop, splitFraction, htake', hdrop', hn, he]

/-- **What a text without a point denotes.** -/
theorem read?_mark (hwhole : ∀ c ∈ whole, c.isDigit = true)
    (hmark : ∀ c ∈ mark.head?, c.isDigit = false ∧ c ≠ '.')
    (hn : Numeral.natural? 10 whole = some n) (he : exponent? mark = some e) :
    read? (whole ++ mark) = some ⟨n, e⟩ := by
  obtain ⟨htake, hdrop⟩ := span_isDigit hwhole fun c hc => (hmark c hc).1
  have hsplit : splitFraction mark = ([], mark) := by
    unfold splitFraction
    split
    · exact absurd rfl (hmark '.' rfl).2
    · rfl
  simp only [read?, htake, hdrop, hsplit, List.append_nil, hn, he, List.length_nil]
  exact congrArg (fun e => some (Decimal.mk n e)) (Int.sub_zero e)

/-- An exponent without a sign is a number. -/
theorem exponent?_of_isUnsigned {digits : List Char} (h : Text.IsUnsigned digits) :
    exponent? ('e' :: digits) = (Numeral.natural? 10 digits).map fun n => (n : Int) := by
  simp only [exponent?]
  rw [if_pos (Or.inl trivial)]
  split
  · exact absurd rfl (Text.isUnsigned_cons.1 h).1
  · exact absurd rfl (Text.isUnsigned_cons.1 h).2
  · rfl

/-- An exponent is read as it is written. -/
theorem exponent?_decimalText (e : Int) : exponent? ('e' :: Numeral.decimalText e) = some e := by
  have hread := Numeral.natural?_toDigits e.natAbs
  rw [Numeral.decimalText]
  split
  · next hneg =>
      simp only [exponent?, hread]
      exact congrArg some (show -(e.natAbs : Int) = e by omega)
  · next hpos =>
      rw [exponent?_of_isUnsigned (Numeral.isUnsigned_toDigits _), hread]
      exact congrArg some (show (e.natAbs : Int) = e by omega)

end Decimal

/-! ### Layouts -/

namespace Shortest

variable {digits : List Char}

theorem isDigit_of_mem_replicate {k : Nat} {c : Char} (h : c ∈ List.replicate k '0') :
    c.isDigit = true := by
  rw [List.eq_of_mem_replicate h]
  rfl

theorem ofDigitChars_replicate_append (k : Nat) (digits : List Char) :
    Nat.ofDigitChars 10 (List.replicate k '0' ++ digits) 0 = Nat.ofDigitChars 10 digits 0 := by
  rw [Nat.ofDigitChars_append, Nat.ofDigitChars_replicate_zero, Nat.mul_zero]

theorem ofDigitChars_append_replicate (digits : List Char) (k : Nat) :
    Nat.ofDigitChars 10 (digits ++ List.replicate k '0') 0
      = Nat.ofDigitChars 10 digits 0 * 10 ^ k := by
  rw [Nat.ofDigitChars_append, Nat.ofDigitChars_replicate_zero, Nat.mul_comm]

theorem not_isDigit_of_mem_head?_nil : ∀ c ∈ ([] : List Char).head?, c.isDigit = false :=
  fun _ hc => nomatch hc

/-- Digits with the point among them. -/
theorem read?_among (hdigits : ∀ c ∈ digits, c.isDigit = true) (hne : digits ≠ [])
    {mark : List Char} {e : Int} (hmark : ∀ c ∈ mark.head?, c.isDigit = false)
    (he : Decimal.exponent? mark = some e) (k : Nat) :
    Decimal.read? (digits.take k ++ '.' :: (digits.drop k ++ mark))
      = some ⟨Nat.ofDigitChars 10 digits 0, e - (digits.length - k : Nat)⟩ := by
  have hvalue : Numeral.natural? 10 (digits.take k ++ digits.drop k)
      = some (Nat.ofDigitChars 10 digits 0) := by
    rw [List.take_append_drop, Numeral.natural?_of_isDigit hdigits hne]
  rw [Decimal.read?_point (fun c hc => hdigits c (List.mem_of_mem_take hc))
    (fun c hc => hdigits c (List.mem_of_mem_drop hc)) hmark hvalue he, List.length_drop]

/-- Digits with an exponent, the point after the first of them if there are more. -/
theorem read?_scientific (hdigits : ∀ c ∈ digits, c.isDigit = true) (hne : digits ≠ []) (e : Int) :
    Decimal.read? (digits.take 1 ++ (if (digits.drop 1).isEmpty then [] else '.' :: digits.drop 1)
        ++ 'e' :: Numeral.decimalText e)
      = some ⟨Nat.ofDigitChars 10 digits 0, e - (digits.length - 1 : Nat)⟩ := by
  have hmark : ∀ c ∈ ('e' :: Numeral.decimalText e).head?, c.isDigit = false ∧ c ≠ '.' := by
    intro c hc
    obtain rfl := Option.some.inj hc
    exact ⟨rfl, by decide⟩
  have hexponent := Decimal.exponent?_decimalText e
  split
  · next hempty =>
      have hone : digits.length ≤ 1 := List.drop_eq_nil_iff.1 (List.isEmpty_iff.1 hempty)
      rw [List.append_nil, List.take_of_length_le hone, Nat.sub_eq_zero_of_le hone,
        Decimal.read?_mark hdigits hmark (Numeral.natural?_of_isDigit hdigits hne) hexponent]
      exact congrArg (fun e => some (Decimal.mk _ e)) (Int.sub_zero e).symm
  · rw [List.append_assoc, List.cons_append]
    exact read?_among hdigits hne (fun c hc => (hmark c hc).1) hexponent 1

/-- Digits with zeros before them. -/
theorem read?_leadingZeros (hdigits : ∀ c ∈ digits, c.isDigit = true) (hne : digits ≠ [])
    (k : Nat) : Decimal.read? ('0' :: '.' :: (List.replicate k '0' ++ digits))
      = some ⟨Nat.ofDigitChars 10 digits 0, 0 - (k + digits.length : Nat)⟩ := by
  have hall : ∀ k, ∀ c ∈ List.replicate k '0' ++ digits, c.isDigit = true :=
    fun k => List.forall_mem_append.2 ⟨fun c => isDigit_of_mem_replicate, hdigits⟩
  have hvalue : Numeral.natural? 10 (['0'] ++ (List.replicate k '0' ++ digits))
      = some (Nat.ofDigitChars 10 digits 0) := by
    rw [← List.append_assoc, ← List.replicate_one, List.replicate_append_replicate,
      Numeral.natural?_of_isDigit (hall _) (List.append_ne_nil_of_right_ne_nil _ hne),
      ofDigitChars_replicate_append]
  have hread := Decimal.read?_point (List.forall_mem_singleton.2 rfl) (hall k)
    not_isDigit_of_mem_head?_nil hvalue rfl
  rwa [List.append_nil, List.length_append, List.length_replicate] at hread

/-- Digits with zeros after them, of which the last one stands behind the point. -/
theorem read?_trailingZeros (hdigits : ∀ c ∈ digits, c.isDigit = true) (hne : digits ≠ [])
    (k : Nat) : Decimal.read? (digits ++ List.replicate k '0' ++ ['.', '0'])
      = some ⟨Nat.ofDigitChars 10 digits 0 * 10 ^ (k + 1), 0 - (1 : Nat)⟩ := by
  have hall : ∀ k, ∀ c ∈ digits ++ List.replicate k '0', c.isDigit = true :=
    fun k => List.forall_mem_append.2 ⟨hdigits, fun c => isDigit_of_mem_replicate⟩
  have hvalue : Numeral.natural? 10 (digits ++ List.replicate k '0' ++ ['0'])
      = some (Nat.ofDigitChars 10 digits 0 * 10 ^ (k + 1)) := by
    rw [List.append_assoc, ← List.replicate_one, List.replicate_append_replicate,
      Numeral.natural?_of_isDigit (hall _) (List.append_ne_nil_of_left_ne_nil hne _),
      ofDigitChars_append_replicate]
  exact Decimal.read?_point (hall k) (List.forall_mem_singleton.2 rfl)
    not_isDigit_of_mem_head?_nil hvalue rfl

/-- **Digits are read with their value, however they are laid out.** -/
theorem exists_read?_layout (hdigits : ∀ c ∈ digits, c.isDigit = true) (hne : digits ≠ [])
    (point : Int) : ∃ d, Decimal.read? (layout digits point) = some d
      ∧ d.nearest = Decimal.nearest ⟨Nat.ofDigitChars 10 digits 0, point - digits.length⟩ := by
  have hlength := List.length_pos_of_ne_nil hne
  rw [layout]
  split
  · refine ⟨_, read?_scientific hdigits hne (point - 1), ?_⟩
    congr 2
    omega
  split
  · refine ⟨_, read?_leadingZeros hdigits hne (-point).toNat, ?_⟩
    congr 2
    omega
  split
  · -- the zeros that fill up the whole number are digits, and make up for the point
    obtain ⟨k, hk⟩ : ∃ k, point.toNat - digits.length = k := ⟨_, rfl⟩
    rw [hk]
    refine ⟨_, read?_trailingZeros hdigits hne k, ?_⟩
    rw [Decimal.nearest_mul_pow]
    congr 2
    omega
  · have hread := read?_among hdigits hne not_isDigit_of_mem_head?_nil rfl point.toNat
    rw [List.append_nil] at hread
    refine ⟨_, hread, ?_⟩
    congr 2
    omega

/-- Zeros at the end of the digits are left out. -/
theorem dropZeros_append_replicate (earlier : List Char) {c : Char} (hc : c ≠ '0') (k : Nat) :
    dropZeros (earlier ++ [c] ++ List.replicate k '0') = earlier ++ [c] := by
  have hzeros : ∀ z ∈ List.replicate k '0', decide (z = '0') = true :=
    fun z hz => decide_eq_true (List.eq_of_mem_replicate hz)
  rw [dropZeros, List.reverse_append, List.reverse_replicate, List.dropWhile_append_of_pos hzeros,
    List.reverse_append, List.reverse_singleton, List.singleton_append,
    List.dropWhile_cons_of_neg (by simpa using hc), List.reverse_cons, List.reverse_reverse]

/-- A digit other than zero is written as another character. -/
theorem digitChar_ne_zero {n : Nat} (hn : n < 10) (hne : n ≠ 0) : Nat.digitChar n ≠ '0' := by
  intro heq
  have hcode := congrArg Char.toNat heq
  rw [Nat.toNat_digitChar_of_lt_ten hn] at hcode
  have hzero : '0'.toNat = 48 := rfl
  omega

/-- What is written of a decimal are the digits of a number that does not end in zero. -/
theorem exists_write_eq {d : Decimal} (positive : 0 < d.digits) :
    ∃ (s k : Nat), d.digits = s * 10 ^ k
      ∧ write d = layout (Nat.toDigits 10 s) ((Nat.toDigits 10 s).length + (d.exponent + k)) := by
  obtain ⟨s, k, hs, hlast⟩ := Numeral.exists_mul_pow positive
  have hpos : 0 < s := Nat.pos_of_ne_zero fun hzero => hlast (by rw [hzero])
  obtain ⟨earlier, hdigits⟩ := Numeral.toDigits_eq_concat s
  have hne := digitChar_ne_zero (Nat.mod_lt s (by decide)) hlast
  refine ⟨s, k, hs, ?_⟩
  simp only [write]
  rw [hs, Numeral.toDigits_mul_pow hpos, List.length_append, List.length_replicate, hdigits,
    dropZeros_append_replicate earlier hne]
  congr 1
  omega

/-- **What is written of a decimal is read with its value.** -/
theorem exists_read?_write {d : Decimal} (positive : 0 < d.digits) :
    ∃ found, Decimal.read? (write d) = some found ∧ found.nearest = d.nearest := by
  obtain ⟨s, k, hs, hwrite⟩ := exists_write_eq positive
  obtain ⟨found, hread, hnearest⟩ := exists_read?_layout
    (fun c => Numeral.isDigit_of_mem_toDigits) (Numeral.toDigits_ne_nil s)
    ((Nat.toDigits 10 s).length + (d.exponent + k))
  refine ⟨found, hwrite ▸ hread, ?_⟩
  rw [hnearest, Nat.ofDigitChars_toDigits (by decide) (by decide), add_sub_cancel_left,
    ← Decimal.nearest_mul_pow, ← hs]

/-- Digits, points, exponent marks and minus signs are plain characters. -/
theorem isPlain_layout (hdigits : ∀ c ∈ digits, c.isDigit = true) (point : Int) :
    ∀ c ∈ layout digits point, Text.IsPlain c := by
  have hplain : ∀ c ∈ digits, Text.IsPlain c := fun c hc => Text.isPlain_of_isDigit (hdigits c hc)
  have htake : ∀ k, ∀ c ∈ digits.take k, Text.IsPlain c :=
    fun k c hc => hplain c (List.mem_of_mem_take hc)
  have hdrop : ∀ k, ∀ c ∈ digits.drop k, Text.IsPlain c :=
    fun k c hc => hplain c (List.mem_of_mem_drop hc)
  have hzeros : ∀ (k : Nat), ∀ c ∈ List.replicate k '0', Text.IsPlain c :=
    fun k c hc => Text.isPlain_of_isDigit (isDigit_of_mem_replicate hc)
  have hmarks : Text.IsPlain '.' ∧ Text.IsPlain 'e' ∧ Text.IsPlain '0' := by decide
  rw [layout]
  split
  · refine List.forall_mem_append.2 ⟨List.forall_mem_append.2 ⟨htake 1, ?_⟩,
      List.forall_mem_cons.2 ⟨hmarks.2.1, Numeral.isPlain_decimalText _⟩⟩
    split
    · exact List.forall_mem_nil _
    · exact List.forall_mem_cons.2 ⟨hmarks.1, hdrop 1⟩
  split
  · exact List.forall_mem_cons.2 ⟨hmarks.2.2, List.forall_mem_cons.2 ⟨hmarks.1,
      List.forall_mem_append.2 ⟨hzeros _, hplain⟩⟩⟩
  split
  · exact List.forall_mem_append.2 ⟨List.forall_mem_append.2 ⟨hplain, hzeros _⟩,
      Text.forall_mem_of_all (by decide)⟩
  · exact List.forall_mem_append.2 ⟨htake _, List.forall_mem_cons.2 ⟨hmarks.1, hdrop _⟩⟩

/-- A layout starts with a digit. -/
theorem exists_layout_eq_cons (hdigits : ∀ c ∈ digits, c.isDigit = true) (hne : digits ≠ [])
    (point : Int) : ∃ c rest, layout digits point = c :: rest ∧ c.isDigit = true := by
  obtain ⟨first, others, rfl⟩ := List.exists_cons_of_ne_nil hne
  have hfirst := hdigits first List.mem_cons_self
  rw [layout]
  split
  · exact ⟨first, _, rfl, hfirst⟩
  split
  · exact ⟨'0', _, rfl, rfl⟩
  split
  · exact ⟨first, _, rfl, hfirst⟩
  · next hpoint _ =>
      obtain ⟨k, hk⟩ : ∃ k, point.toNat = k + 1 := ⟨point.toNat - 1, by omega⟩
      rw [hk]
      exact ⟨first, _, rfl, hfirst⟩

end Shortest

/-! ### Floats -/

namespace Binary64

variable {m : Nat} {x : Binary64}

/-- The text of a magnitude that is a number: it is read back, its characters are plain, and its
first one is no sign. -/
structure Legible (m : Nat) : Prop where
  read : readMagnitude? (magnitudeText m) = some m
  plain : ∀ c ∈ magnitudeText m, Text.IsPlain c
  unsigned : Text.IsUnsigned (magnitudeText m)

/-- The text of a finite magnitude other than zero is what is written of its shortest decimal. -/
theorem legible_of_finite (positive : 0 < m) (finite : m < infinity) : Legible m := by
  have hnearest := Shortest.nearest_decimal positive finite
  have hdigits : 0 < (Shortest.decimal m).digits := by
    refine Nat.pos_of_ne_zero fun hzero => ?_
    rw [Decimal.nearest, if_pos hzero] at hnearest
    exact Nat.ne_of_lt positive hnearest
  have htext : magnitudeText m = Shortest.write (Shortest.decimal m) := by
    rw [magnitudeText, if_neg (Nat.ne_of_lt finite), if_neg (Nat.ne_of_gt positive)]
  obtain ⟨found, hread, hfound⟩ := Shortest.exists_read?_write hdigits
  obtain ⟨s, k, -, hwrite⟩ := Shortest.exists_write_eq hdigits
  have hall : ∀ c ∈ Nat.toDigits 10 s, c.isDigit = true :=
    fun c => Numeral.isDigit_of_mem_toDigits
  rw [hwrite] at htext
  exact {
    read := by
      rw [readMagnitude?, htext, ← hwrite, hread]
      exact congrArg some (hfound.trans hnearest)
    plain := by
      rw [htext]
      exact Shortest.isPlain_layout hall _
    unsigned := by
      obtain ⟨first, rest, hlayout, hfirst⟩ :=
        Shortest.exists_layout_eq_cons hall (Numeral.toDigits_ne_nil s) _
      rw [htext, hlayout]
      exact Text.isUnsigned_of_isDigit hfirst }

/-- The text of every magnitude that is a number. -/
theorem legible (number : m ≤ infinity) : Legible m := by
  rcases Nat.eq_zero_or_pos m with rfl | hpos
  · exact ⟨by decide, Text.forall_mem_of_all (by decide), Text.isUnsigned_of_isDigit rfl⟩
  rcases Nat.lt_or_eq_of_le number with hlt | rfl
  · exact legible_of_finite hpos hlt
  · exact ⟨by decide, Text.forall_mem_of_all (by decide), Text.isUnsigned_cons.2 (by decide)⟩

theorem magnitude_le (h : x.isNaN = false) : x.magnitude ≤ infinity := by
  rw [isNaN, decide_eq_false_iff_not] at h
  exact Nat.le_of_not_lt h

/-- A text without a sign is read as a magnitude. -/
theorem read?_of_isUnsigned {text : List Char} (h : Text.IsUnsigned text) :
    read? text = (readMagnitude? text).map (ofMagnitude false) := by
  unfold read?
  split
  · exact absurd rfl (Text.isUnsigned_cons.1 h).1
  · exact absurd rfl (Text.isUnsigned_cons.1 h).2
  · rfl

/-- **A float is read back from its text.** -/
theorem read?_text (h : x.isNaN = false) : read? x.text = some x := by
  have hlegible := legible (magnitude_le h)
  have hvalue := ofMagnitude_magnitude x
  rw [text, if_neg (Bool.eq_false_iff.1 h)]
  split
  · next hneg =>
      rw [hneg] at hvalue
      rw [read?, hlegible.read, Option.map_some, hvalue]
  · next hpos =>
      rw [Bool.eq_false_iff.2 hpos] at hvalue
      rw [read?_of_isUnsigned hlegible.unsigned, hlegible.read, Option.map_some, hvalue]

/-- **What is not a number is read back as not a number.** -/
theorem exists_read?_text_of_isNaN (h : x.isNaN = true) :
    ∃ y : Binary64, y.isNaN = true ∧ read? x.text = some y := by
  rw [text, if_pos h]
  exact ⟨ofMagnitude false quietNaN, by decide, by decide⟩

/-- The text of a float consists of plain characters. -/
theorem isPlain_of_mem_text (x : Binary64) : ∀ c ∈ x.text, Text.IsPlain c := by
  rw [text]
  split
  · exact Text.forall_mem_of_all (by decide)
  · next hnumber =>
      have hplain := (legible (magnitude_le (Bool.eq_false_iff.2 hnumber))).plain
      split
      · exact List.forall_mem_cons.2 ⟨by decide, hplain⟩
      · exact hplain

end Binary64

end SyntaxForest
