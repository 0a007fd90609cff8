/-
**Which texts are read as integers.**

A written integer has at most one sign, which stands first.  A reader takes the first sign off, and
then the mark of the radix, and reads what is left as a numeral, which may have a sign of its own.
So the sign of a written integer may just as well stand after its mark, and there a plus may stand
before the mark.  After a minus there is no other sign, since the minus goes before the numeral,
where its own sign is.

These are all the texts that are read as integers, blanks around them and underscores left aside.

Main definitions:

* `Numeral.Written.Spells` — the texts that are read as a written integer.

Main results:

* `Numeral.exists_digits_of_natural?` — what is read as a natural number consists of digits;
* `Literal.integerOf?_of_spells`, `Literal.exists_spells_of_integerOf?` — the spellings of an
  integer are read as the integer, and nothing else is;
* `Numeral.Written.Spells.exists_text_iff` — a spelling is a written integer exactly when it has no
  sign after its first character;
* `Literal.parse_integer_iff` — **what is read as an integer are the spellings of written
  integers**, and those with a sign after the first character are no written integers.
-/

import SyntaxForest.Proofs.Syntax.Literals

set_option relaxedAutoImplicit false
set_option autoImplicit false

namespace SyntaxForest

namespace Numeral

variable {radix n : Nat} {c : Char} {cs : List Char}

/-! ### Digits that have been read -/

/-- A character with a hexadecimal value is the digit of that value. -/
theorem exists_digitChar_of_hexValue? (h : hexValue? c = some n) :
    ∃ isUpper, digitChar isUpper n = c := by
  -- the three ranges of digits are finite, so each is checked
  have decimal : ∀ k : Fin 10, (digitChar false k).toNat = 0x30 + k := by decide
  have lower : ∀ k : Fin 6, (digitChar false (k + 10)).toNat = 0x61 + k := by decide
  have upper : ∀ k : Fin 6, (digitChar true (k + 10)).toNat = 0x41 + k := by decide
  simp only [hexValue?] at h
  split at h
  · obtain rfl := Option.some.inj h
    refine ⟨false, Char.toNat_inj.1 ?_⟩
    have := decimal ⟨c.toNat - 0x30, by omega⟩
    simp only at this
    omega
  · split at h
    · obtain rfl := Option.some.inj h
      refine ⟨false, Char.toNat_inj.1 ?_⟩
      have := lower ⟨c.toNat - 0x61, by omega⟩
      simp only at this
      omega
    · split at h
      · obtain rfl := Option.some.inj h
        refine ⟨true, Char.toNat_inj.1 ?_⟩
        have := upper ⟨c.toNat - 0x41, by omega⟩
        simp only at this
        omega
      · cases h

/-- A character with a value in a radix is a digit of it. -/
theorem exists_digit_of_digitValue? (h : digitValue? radix c = some n) :
    ∃ d : Digit radix, d.char = c := by
  unfold digitValue? at h
  cases hc : hexValue? c with
  | none => simp [hc] at h
  | some value =>
      by_cases hlt : value < radix
      · obtain ⟨isUpper, hchar⟩ := exists_digitChar_of_hexValue? hc
        exact ⟨⟨⟨value, hlt⟩, isUpper⟩, hchar⟩
      · simp [hc, hlt] at h

theorem exists_digits_of_continue? {total : Nat} (h : continue? radix total cs = some n) :
    ∃ digits : List (Digit radix), digits.map Digit.char = cs := by
  induction cs generalizing total with
  | nil => exact ⟨[], rfl⟩
  | cons c rest ih =>
      simp only [continue?] at h
      cases hc : digitValue? radix c with
      | none => simp [hc] at h
      | some value =>
          obtain ⟨d, rfl⟩ := exists_digit_of_digitValue? hc
          simp only [hc] at h
          obtain ⟨ds, rfl⟩ := ih h
          exact ⟨d :: ds, rfl⟩

/-- **What is read as a natural number consists of digits,** at least one. -/
theorem exists_digits_of_natural? (h : natural? radix cs = some n) :
    ∃ digits : List (Digit radix), digits ≠ [] ∧ digits.map Digit.char = cs := by
  cases cs with
  | nil => simp [natural?] at h
  | cons c rest =>
      obtain ⟨digits, hdigits⟩ := exists_digits_of_continue? h
      refine ⟨digits, ?_, hdigits⟩
      rintro rfl
      cases hdigits

/-! ### Spellings -/

namespace Written

/-- `w.Spells text`: the text has the sign, the mark and the digits of a written integer, the sign
in front, or after the mark and the mark perhaps after a plus. -/
inductive Spells (w : Written) : List Char → Prop
  /-- The sign stands in front. -/
  | front : Spells w w.text
  /-- The sign stands after the mark. -/
  | inner : Spells w (w.mark.text ++ (w.sign.text ++ w.digitText))
  /-- The sign stands after the mark, and a plus in front. -/
  | doubled : Spells w ('+' :: (w.mark.text ++ (w.sign.text ++ w.digitText)))

variable (w : Written)

theorem isUnsigned_digitText : Text.IsUnsigned w.digitText :=
  fun c hc => (w.isFigure_digitText c (List.mem_of_mem_head? hc)).2.1

/-- A written integer has no sign after its first character. -/
theorem unsigned_tail_text : ∀ c ∈ w.text.tail, c ≠ '-' ∧ c ≠ '+' := by
  have hdigits : ∀ c ∈ w.digitText, c ≠ '-' ∧ c ≠ '+' :=
    fun c hc => (w.isFigure_digitText c hc).2.1
  have hmark : ∀ c ∈ w.mark.text, c ≠ '-' ∧ c ≠ '+' := by
    cases w.mark <;> exact Text.forall_mem_of_all (by decide)
  have hbody : ∀ c ∈ w.mark.text ++ w.digitText, c ≠ '-' ∧ c ≠ '+' :=
    List.forall_mem_append.2 ⟨hmark, hdigits⟩
  intro c hc
  rw [text] at hc
  cases hsign : w.sign with
  | absent =>
      rw [hsign] at hc
      exact hbody c (List.mem_of_mem_tail hc)
  | plus | minus =>
      rw [hsign] at hc
      exact hbody c hc

end Written

/-- What is read as a numeral is a sign and digits. -/
theorem exists_written_of_signed? {mark : Mark} {word : Int64}
    (h : signed? mark.radix cs = some word) : ∃ w : Written, w.mark = mark
      ∧ cs = w.sign.text ++ w.digitText ∧ word.toInt = w.value := by
  have build : ∀ (sign : Sign) (rest : List Char),
      (natural? mark.radix rest).bind (fun n => ofInt? (sign.apply n)) = some word →
      ∃ w : Written, w.mark = mark ∧ sign.text ++ rest = w.sign.text ++ w.digitText
        ∧ word.toInt = w.value := by
    intro sign rest hread
    obtain ⟨n, hn, hword⟩ := Option.bind_eq_some_iff.1 hread
    obtain ⟨digits, hne, rfl⟩ := exists_digits_of_natural? hn
    refine ⟨⟨sign, mark, digits, hne⟩, rfl, rfl, ?_⟩
    rw [natural?_digits mark.radix_le hne] at hn
    obtain rfl := Option.some.inj hn
    exact toInt_of_ofInt? hword
  unfold signed? at h
  split at h
  · exact build .minus _ h
  · exact build .plus _ h
  · exact build .absent _ h

end Numeral

namespace Literal

open Numeral (Sign Mark Written)

variable {text rest : List Char} {word : Int64}

/-! ### Spellings are read -/

/-- A sign after the mark is read as one in front. -/
theorem numeral?_signed (w : Written) :
    numeral? false (w.mark.text ++ (w.sign.text ++ w.digitText)) = Numeral.ofInt? w.value := by
  -- no digit is an x, so no second mark is found
  have hnone : afterHexMark? (w.sign.text ++ w.digitText) = none := by
    refine afterHexMark?_eq_none (List.forall_mem_append.2 ⟨?_, fun c hc => ?_⟩)
    · cases w.sign <;> exact Text.forall_mem_of_all (by decide)
    · exact (w.isFigure_digitText c hc).2.2
  have hmark : numeral? false (w.mark.text ++ (w.sign.text ++ w.digitText))
      = Numeral.signed? w.mark.radix (w.sign.text ++ w.digitText) := by
    cases hm : w.mark with
    | decimal =>
        simp only [Mark.text, List.nil_append, numeral?, hnone]
        rfl
    | lowerHex | upperHex => rfl
  have hsigned : ∀ sign : Sign, Numeral.signed? w.mark.radix (sign.text ++ w.digitText)
      = Numeral.ofInt? (sign.apply w.magnitude) := by
    intro sign
    cases sign with
    | absent =>
        rw [Sign.text, List.nil_append, Numeral.signed?_of_isUnsigned w.isUnsigned_digitText,
          w.natural?_digitText]
        rfl
    | plus | minus =>
        change (Numeral.natural? w.mark.radix w.digitText).bind _ = _
        rw [w.natural?_digitText]
        rfl
  exact hmark.trans (hsigned w.sign)

/-- **A spelling of an integer is read as the integer.** -/
theorem integerOf?_of_spells {w : Written} (h : w.Spells text) :
    integerOf? text = Numeral.ofInt? w.value := by
  have hfront := integerOf?_signed w.sign w.mark w.isFigure_digitText w.natural?_digitText
  cases h with
  | front => exact hfront
  | inner =>
      cases hm : w.mark with
      | decimal =>
          rw [hm] at hfront
          exact hfront
      | lowerHex | upperHex =>
          have hread := numeral?_signed w
          rw [hm] at hread
          exact hread
  | doubled => exact numeral?_signed w

/-! ### Nothing else is read -/

theorem exists_mark_of_afterHexMark? (h : afterHexMark? text = some rest) :
    ∃ mark : Mark, mark.radix = 16 ∧ text = mark.text ++ rest := by
  unfold afterHexMark? at h
  split at h
  · obtain rfl := Option.some.inj h
    exact ⟨.lowerHex, rfl, rfl⟩
  · obtain rfl := Option.some.inj h
    exact ⟨.upperHex, rfl, rfl⟩
  · cases h

/-- What is read after the sign is a mark, or none, and a numeral in its radix. -/
theorem exists_mark_of_numeral? {isMinus : Bool} (h : numeral? isMinus text = some word) :
    ∃ (mark : Mark) (rest : List Char), text = mark.text ++ rest
      ∧ Numeral.signed? mark.radix ((if isMinus then ['-'] else []) ++ rest) = some word := by
  unfold numeral? at h
  cases hmark : afterHexMark? text with
  | none =>
      simp only [hmark] at h
      exact ⟨.decimal, text, rfl, h⟩
  | some rest =>
      simp only [hmark] at h
      obtain ⟨mark, hradix, htext⟩ := exists_mark_of_afterHexMark? hmark
      exact ⟨mark, rest, htext, hradix ▸ h⟩

theorem exists_written_of_numeral? (h : numeral? false text = some word) :
    ∃ w : Written, text = w.mark.text ++ (w.sign.text ++ w.digitText) ∧ word.toInt = w.value := by
  obtain ⟨mark, rest, rfl, hread⟩ := exists_mark_of_numeral? h
  obtain ⟨w, rfl, rfl, hvalue⟩ := Numeral.exists_written_of_signed? hread
  exact ⟨w, rfl, hvalue⟩

/-- What is read after a minus has no other sign. -/
theorem exists_written_of_numeral?_minus (h : numeral? true text = some word) :
    ∃ w : Written, '-' :: text = w.text ∧ word.toInt = w.value := by
  obtain ⟨mark, rest, rfl, hread⟩ := exists_mark_of_numeral? h
  obtain ⟨w, rfl, hsigned, hvalue⟩ := Numeral.exists_written_of_signed? hread
  refine ⟨w, ?_, hvalue⟩
  cases hsign : w.sign with
  | absent =>
      have hdigits := w.isUnsigned_digitText
      rw [hsign] at hsigned
      rw [← show ['-'] ++ rest = w.digitText from hsigned] at hdigits
      exact absurd rfl (hdigits '-' rfl).1
  | plus =>
      rw [hsign] at hsigned
      cases hsigned
  | minus =>
      rw [hsign] at hsigned
      have hrest : rest = w.digitText := (List.cons.inj hsigned).2
      rw [hrest, Written.text, hsign]
      rfl

/-- **What is read as an integer spells a written integer.** -/
theorem exists_spells_of_integerOf? (h : integerOf? text = some word) :
    ∃ w : Written, w.Spells text ∧ word.toInt = w.value := by
  unfold integerOf? at h
  split at h
  · obtain ⟨w, hw, hvalue⟩ := exists_written_of_numeral?_minus h
    exact ⟨w, hw ▸ .front, hvalue⟩
  · obtain ⟨w, rfl, hvalue⟩ := exists_written_of_numeral? h
    exact ⟨w, .doubled, hvalue⟩
  · obtain ⟨w, rfl, hvalue⟩ := exists_written_of_numeral? h
    exact ⟨w, .inner, hvalue⟩

end Literal

/-! ### Signs that do not stand first -/

namespace Numeral

theorem Sign.eq_absent {sign : Sign} (h : ∀ c ∈ sign.text, c ≠ '-' ∧ c ≠ '+') :
    sign = .absent := by
  cases sign with
  | absent => rfl
  | plus => exact absurd rfl (h '+' List.mem_cons_self).2
  | minus => exact absurd rfl (h '-' List.mem_cons_self).1

namespace Written.Spells

variable {w : Written} {text : List Char}

/-- **A spelling is a written integer exactly when it has no sign after its first character.** -/
theorem exists_text_iff (h : w.Spells text) :
    (∃ v : Written, text = v.text ∧ v.value = w.value) ↔ ∀ c ∈ text.tail, c ≠ '-' ∧ c ≠ '+' := by
  constructor
  · rintro ⟨v, rfl, -⟩
    exact v.unsigned_tail_text
  · intro hsingle
    -- a sign that is not in front can only be absent
    have single : (∀ c ∈ w.sign.text, c ∈ text.tail) → w.sign = .absent :=
      fun hmem => Sign.eq_absent fun c hc => hsingle c (hmem c hc)
    cases h with
    | front => exact ⟨w, rfl, rfl⟩
    | inner =>
        refine ⟨w, ?_, rfl⟩
        cases hm : w.mark with
        | decimal =>
            rw [Written.text, hm]
            rfl
        | lowerHex | upperHex =>
            have habsent : w.sign = .absent := by
              refine single fun c hc => ?_
              have hinner : c ∈ w.sign.text ++ w.digitText := List.mem_append_left _ hc
              rw [hm]
              exact List.mem_cons_of_mem _ hinner
            rw [Written.text, hm, habsent]
            rfl
    | doubled =>
        have habsent : w.sign = .absent :=
          single fun c hc => List.mem_append_right _ (List.mem_append_left _ hc)
        refine ⟨⟨.plus, w.mark, w.digits, w.digits_ne_nil⟩, ?_, ?_⟩
        · rw [habsent]
          rfl
        · rw [value, value, habsent]
          rfl

end Written.Spells

end Numeral

/-! ### Integer literals -/

namespace Literal

open Numeral (Written)

/-- **What is read as an integer are the spellings of written integers.**  Blanks around a text and
underscores in it do not count.  What is left is read as an integer exactly when it spells one that
is in the signed 64-bit range, and has the value of that integer.  It is itself a written integer of
that value, with one sign at most, and in front, exactly when it has no sign after its first
character. -/
theorem parse_integer_iff (source : String) (value : Literal) :
    let plain := ungroup (Text.trim source.toList)
    let reads : Written → Prop := fun w => ∃ word : Int64, value = .integer word
      ∧ word.toInt = w.value
    (parse .integer source = .ok value ↔ ∃ w : Written, w.Spells plain ∧ reads w)
      ∧ (parse .integer source = .ok value →
        ((∃ w : Written, plain = w.text ∧ reads w) ↔ ∀ c ∈ plain.tail, c ≠ '-' ∧ c ≠ '+')) := by
  intro plain reads
  have hparse : parse .integer source = .ok value ↔ ∃ w : Written, w.Spells plain ∧ reads w := by
    rw [parse_eq_ok_iff, read?_integer, Option.map_eq_some_iff]
    constructor
    · rintro ⟨word, hread, rfl⟩
      obtain ⟨w, hspells, hvalue⟩ := exists_spells_of_integerOf? hread
      exact ⟨w, hspells, word, rfl, hvalue⟩
    · rintro ⟨w, hspells, word, rfl, hvalue⟩
      refine ⟨word, ?_, rfl⟩
      rw [integerOf?_of_spells hspells, ← hvalue, Numeral.ofInt?_toInt]
  refine ⟨hparse, fun hok => ?_⟩
  obtain ⟨w, hspells, word, rfl, hvalue⟩ := hparse.1 hok
  rw [← hspells.exists_text_iff]
  constructor
  · rintro ⟨v, htext, other, hother, hv⟩
    cases hother
    exact ⟨v, htext, hv.symm.trans hvalue⟩
  · rintro ⟨v, htext, hv⟩
    exact ⟨v, htext, word, rfl, hvalue.trans hv.symm⟩

/-- Two hexadecimal digits under a minus. -/
def minusByte : Written :=
  ⟨.minus, .lowerHex, [⟨⟨15, by decide⟩, false⟩, ⟨⟨15, by decide⟩, true⟩], List.cons_ne_nil _ _⟩

/-- A minus after the mark is read, and is in the way of a written integer. -/
theorem parse_integer_inner : parse .integer " 0x-_fF" = .ok (.integer (-255))
    ∧ ¬ ∃ w : Written, ungroup (Text.trim " 0x-_fF".toList) = w.text
      ∧ ∃ word : Int64, Literal.integer (-255) = .integer word ∧ word.toInt = w.value := by
  have hspells : minusByte.Spells (ungroup (Text.trim " 0x-_fF".toList)) := by
    have hplain : ungroup (Text.trim " 0x-_fF".toList)
        = minusByte.mark.text ++ (minusByte.sign.text ++ minusByte.digitText) := by decide
    rw [hplain]
    exact .inner
  have hread : parse .integer " 0x-_fF" = .ok (.integer (-255)) :=
    (parse_integer_iff _ _).1.2 ⟨minusByte, hspells, _, rfl, by decide⟩
  refine ⟨hread, fun hwritten => ?_⟩
  have hsingle := ((parse_integer_iff " 0x-_fF" (.integer (-255))).2 hread).1 hwritten
  exact absurd rfl (hsingle '-' (by decide)).1

/-- A plus before a minus is read over, and is part of no written integer. -/
theorem parse_integer_plusMinus : parse .integer "+-5" = .ok (.integer (-5))
    ∧ ¬ ∃ w : Written, ungroup (Text.trim "+-5".toList) = w.text := by
  refine ⟨by rfl, ?_⟩
  rintro ⟨w, hw⟩
  have hplain : ungroup (Text.trim "+-5".toList) = ['+', '-', '5'] := by decide
  have htail := w.unsigned_tail_text
  rw [← hw, hplain] at htail
  exact absurd rfl (htail '-' List.mem_cons_self).1

end Literal

end SyntaxForest
