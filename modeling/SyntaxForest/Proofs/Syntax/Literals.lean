/-
**Literals are read as they are written.**

A value is written in one way and read in many.  An integer may be written in either of two radices,
with any number of zeros in front and with underscores anywhere; whatever its digits, it is read as
the integer that is meant if that is a signed 64-bit integer, and refused otherwise.  What a value
is written as is one of the ways in which it is read, blanks around it or none, so a literal made
from that text holds the value.

Main definitions:

* `Literal.IsNaN` — a float literal that is not a number.

Main results:

* `Literal.integerOf?_signed` — a sign, a mark and digits are read as the integer that is meant;
* `Literal.read?_surrounded` — blanks around a text do not count;
* `Literal.parse_written` — **a written integer is read as the integer that is meant, or refused if
  that is out of range**;
* `Literal.read?_render` — a value is read back from its text;
* `Builder.literal_of_room` — a literal is made and holds its value, if there is room;
* `Literal.parse_render` — **a value is read back from its text, and so is a literal of a source**.
-/

import SyntaxForest.Proofs.Builder.Checks
import SyntaxForest.Proofs.Numeral.FloatText
import SyntaxForest.Proofs.Numeral.Written

set_option relaxedAutoImplicit false
set_option autoImplicit false

namespace SyntaxForest

/-! ### Signed numerals -/

namespace Numeral

variable {n : Int} {radix : Nat} {digits : List Char}

/-- A value in the signed 64-bit range is kept. -/
theorem exists_ofInt? (h : -2 ^ 63 ≤ n ∧ n ≤ 2 ^ 63 - 1) :
    ∃ word : Int64, word.toInt = n ∧ ofInt? n = some word := by
  have hrange : Int64.minValue.toInt ≤ n ∧ n ≤ Int64.maxValue.toInt := by
    rwa [Int64.toInt_minValue, Int64.toInt_maxValue]
  have hword : ofInt? n = some (Int64.ofInt n) := if_pos hrange
  exact ⟨_, toInt_of_ofInt? hword, hword⟩

theorem ofInt?_eq_none (h : ¬ (-2 ^ 63 ≤ n ∧ n ≤ 2 ^ 63 - 1)) : ofInt? n = none := by
  rw [ofInt?, Int64.toInt_minValue, Int64.toInt_maxValue, if_neg h]

theorem ofInt?_toInt (word : Int64) : ofInt? word.toInt = some word := by
  rw [ofInt?, if_pos ⟨word.minValue_le_toInt, word.toInt_le⟩, Int64.ofInt_toInt]

/-- A numeral without a sign is not negative. -/
theorem signed?_of_isUnsigned (h : Text.IsUnsigned digits) :
    signed? radix digits = (natural? radix digits).bind fun n => ofInt? n := by
  unfold signed?
  split
  · exact absurd rfl (Text.isUnsigned_cons.1 h).1
  · exact absurd rfl (Text.isUnsigned_cons.1 h).2
  · rfl

end Numeral

namespace Literal

open Numeral (Sign Mark IsFigure Written)

variable {mark : Mark} {digits plain text inner left right : List Char} {n : Nat}

/-- Where there is no letter of a mark there is no mark. -/
theorem afterHexMark?_eq_none (h : ∀ c ∈ text, c ≠ 'x' ∧ c ≠ 'X') : afterHexMark? text = none := by
  unfold afterHexMark?
  split
  · exact absurd rfl (h 'x' (List.mem_cons_of_mem _ List.mem_cons_self)).1
  · exact absurd rfl (h 'X' (List.mem_cons_of_mem _ List.mem_cons_self)).2
  · rfl

/-- The mark before a numeral tells its radix. -/
theorem numeral?_marked (hdigits : ∀ c ∈ digits, IsFigure c) (isMinus : Bool) :
    numeral? isMinus (mark.text ++ digits)
      = Numeral.signed? mark.radix ((if isMinus then ['-'] else []) ++ digits) := by
  cases mark with
  | decimal =>
      have hnone := afterHexMark?_eq_none fun c hc => (hdigits c hc).2.2
      rw [Mark.text, List.nil_append, numeral?, hnone]
      rfl
  | lowerHex => rfl
  | upperHex => rfl

/-- A text without a sign is a numeral that is not negative. -/
theorem integerOf?_of_isUnsigned (h : Text.IsUnsigned text) :
    integerOf? text = numeral? false text := by
  unfold integerOf?
  split
  · exact absurd rfl (Text.isUnsigned_cons.1 h).1
  · exact absurd rfl (Text.isUnsigned_cons.1 h).2
  · rfl

/-- **A sign, a mark and digits are read as the integer that is meant.** -/
theorem integerOf?_signed (sign : Sign) (mark : Mark) (hdigits : ∀ c ∈ digits, IsFigure c)
    (hn : Numeral.natural? mark.radix digits = some n) :
    integerOf? (sign.text ++ (mark.text ++ digits)) = Numeral.ofInt? (sign.apply n) := by
  have hunsigned : Text.IsUnsigned digits :=
    fun c hc => (hdigits c (List.mem_of_mem_head? hc)).2.1
  have hpositive : numeral? false (mark.text ++ digits) = Numeral.ofInt? n := by
    rw [numeral?_marked hdigits]
    exact (Numeral.signed?_of_isUnsigned hunsigned).trans (by rw [hn, Option.bind_some])
  cases sign with
  | absent =>
      have hbody : Text.IsUnsigned (mark.text ++ digits) := by
        cases mark with
        | decimal => exact hunsigned
        | lowerHex => exact Text.isUnsigned_cons.2 (by decide)
        | upperHex => exact Text.isUnsigned_cons.2 (by decide)
      exact (integerOf?_of_isUnsigned hbody).trans hpositive
  | plus => exact hpositive
  | minus =>
      have hnegative : numeral? true (mark.text ++ digits) = Numeral.ofInt? (-(n : Int)) := by
        rw [numeral?_marked hdigits]
        change (Numeral.natural? mark.radix digits).bind _ = _
        rw [hn, Option.bind_some]
      exact hnegative

/-- An integer is read back from its decimal text. -/
theorem integerOf?_decimalText (e : Int) :
    integerOf? (Numeral.decimalText e) = Numeral.ofInt? e := by
  have hdigits : ∀ c ∈ Nat.toDigits 10 e.natAbs, IsFigure c :=
    fun c hc => Numeral.isFigure_of_isDigit (Numeral.isDigit_of_mem_toDigits hc)
  have hread : ∀ sign : Sign, integerOf? (sign.text ++ Nat.toDigits 10 e.natAbs)
      = Numeral.ofInt? (sign.apply e.natAbs) :=
    fun sign => integerOf?_signed sign .decimal hdigits (Numeral.natural?_toDigits _)
  rw [Numeral.decimalText]
  split
  · next hneg =>
      have hvalue : Sign.minus.apply e.natAbs = e := by
        rw [Sign.apply]
        omega
      exact (hread .minus).trans (congrArg Numeral.ofInt? hvalue)
  · next hpos =>
      have hvalue : Sign.absent.apply e.natAbs = e := Int.natAbs_of_nonneg (Int.not_lt.1 hpos)
      exact (hread .absent).trans (congrArg Numeral.ofInt? hvalue)

/-! ### Blanks and underscores -/

theorem read?_integer (text : List Char) :
    read? .integer text = (integerOf? (ungroup (Text.trim text))).map integer := rfl

theorem read?_float (text : List Char) :
    read? .float text = (Binary64.read? (ungroup (Text.trim text))).map float := rfl

theorem read?_surrounded (kind : LiteralKind) (text : List Char)
    (hleft : ∀ c ∈ left, Text.isBlank c = true) (hright : ∀ c ∈ right, Text.isBlank c = true) :
    read? kind (left ++ text ++ right) = read? kind text := by
  simp only [read?, Text.trim_append_append text hleft hright]

theorem ungroup_of_isPlain (h : ∀ c ∈ text, Text.IsPlain c) : ungroup text = text :=
  List.filter_eq_self.2 fun c hc => decide_eq_true (h c hc).2

theorem ungroup_trim_of_grouped (hplain : ∀ c ∈ plain, Text.IsPlain c)
    (h : Text.Grouped plain text) : ungroup (Text.trim text) = plain := by
  rw [Text.trim_of_isBlank_eq_false (h.isBlank_eq_false hplain)]
  exact h.filter_eq.trans (ungroup_of_isPlain hplain)

theorem ungroup_trim_of_isPlain (h : ∀ c ∈ text, Text.IsPlain c) :
    ungroup (Text.trim text) = text :=
  ungroup_trim_of_grouped h (.refl text)

/-! ### Written integers -/

/-- **A written integer is read as the integer that is meant, or refused if that is out of range.**
The refusal has the whole text, with its blanks and underscores. -/
theorem parse_written (w : Written) (hgrouped : Text.Grouped w.text inner)
    (hleft : ∀ c ∈ left, Text.isBlank c = true) (hright : ∀ c ∈ right, Text.isBlank c = true)
    {source : String} (hsource : source.toList = left ++ inner ++ right) :
    (-2 ^ 63 ≤ w.value ∧ w.value ≤ 2 ^ 63 - 1 →
        ∃ word : Int64, word.toInt = w.value ∧ parse .integer source = .ok (.integer word))
      ∧ (¬ (-2 ^ 63 ≤ w.value ∧ w.value ≤ 2 ^ 63 - 1) →
        parse .integer source = .error (.invalidLiteral .integer source)) := by
  have hinteger : integerOf? w.text = Numeral.ofInt? w.value :=
    integerOf?_signed w.sign w.mark w.isFigure_digitText w.natural?_digitText
  have hread : read? .integer source.toList = (Numeral.ofInt? w.value).map integer := by
    rw [hsource, read?_surrounded _ _ hleft hright, read?_integer,
      ungroup_trim_of_grouped w.isPlain_text hgrouped, hinteger]
  constructor
  · intro hrange
    obtain ⟨word, hword, hsome⟩ := Numeral.exists_ofInt? hrange
    rw [hsome] at hread
    exact ⟨word, hword, parse_eq_ok_iff.2 hread⟩
  · intro hrange
    rw [Numeral.ofInt?_eq_none hrange] at hread
    exact parse_eq_error_iff.2 ⟨hread, rfl⟩

/-- The hexadecimal numeral of `2 ^ 63` under a sign. -/
def edge (sign : Sign) : Written :=
  ⟨sign, .lowerHex, ⟨(8 : Fin 16), false⟩ :: List.replicate 15 ⟨(0 : Fin 16), false⟩,
    List.cons_ne_nil _ _⟩

/-- The range is not symmetric: `2 ^ 63` has no value, and under a minus sign it has one. -/
theorem parse_written_edge :
    (∃ word : Int64, word.toInt = -2 ^ 63
        ∧ parse .integer "\t_-0x8000000000000000\u00a0" = .ok (.integer word))
      ∧ parse .integer " 0x8000000000000000"
        = .error (.invalidLiteral .integer " 0x8000000000000000") := by
  have htab : ∀ c ∈ ['\t'], Text.isBlank c = true := List.forall_mem_singleton.2 rfl
  have hspace : ∀ c ∈ [' '], Text.isBlank c = true := List.forall_mem_singleton.2 rfl
  have hhard : ∀ c ∈ ['\u00a0'], Text.isBlank c = true := List.forall_mem_singleton.2 rfl
  have hlow : "\t_-0x8000000000000000\u00a0".toList
      = ['\t'] ++ '_' :: (edge .minus).text ++ ['\u00a0'] := by decide
  have hhigh : " 0x8000000000000000".toList = [' '] ++ (edge .absent).text ++ [] := by decide
  exact ⟨(parse_written (edge .minus) (.underscore (.refl _)) htab hhard hlow).1 (by decide),
    (parse_written (edge .absent) (.refl _) hspace (List.forall_mem_nil _) hhigh).2 (by decide)⟩

example : parse .integer "\t+0_x_fF" = .ok (.integer 255) := by rfl

/-! ### The text of a value -/

/-- A float literal that is not a number. -/
def IsNaN : Literal → Prop
  | float x => x.isNaN = true
  | _ => False

/-- **A value is read back from its text.** -/
theorem read?_render {v : Literal} (h : ¬ v.IsNaN) : read? v.kind v.render.toList = some v := by
  cases v with
  | integer word =>
      have hplain := Numeral.isPlain_decimalText word.toInt
      rw [render, String.toList_ofList, kind, read?_integer, ungroup_trim_of_isPlain hplain,
        integerOf?_decimalText, Numeral.ofInt?_toInt, Option.map_some]
  | float x =>
      rw [render, String.toList_ofList, kind, read?_float,
        ungroup_trim_of_isPlain x.isPlain_of_mem_text, Binary64.read?_text (Bool.eq_false_iff.2 h),
        Option.map_some]
  | boolean value => cases value <;> rfl
  | null => rfl

/-- What is not a number is read back as not a number. -/
theorem exists_read?_render_of_isNaN {v : Literal} (h : v.IsNaN) :
    ∃ found : Literal, found.IsNaN ∧ read? v.kind v.render.toList = some found := by
  cases v with
  | float x =>
      obtain ⟨y, hy, hread⟩ := Binary64.exists_read?_text_of_isNaN h
      refine ⟨float y, hy, ?_⟩
      rw [render, String.toList_ofList, kind, read?_float,
        ungroup_trim_of_isPlain x.isPlain_of_mem_text, hread, Option.map_some]
  | integer | boolean | null => exact h.elim

end Literal

/-! ### Literals of a source -/

namespace Builder

variable {b : Builder} {span : Span} {v : Literal} {text : String}

/-- A literal has no children and no rule of its own. -/
theorem admits_literal (room : b.forest.size < maxWord) :
    b.forest.Admits (.literal v) span where
  room := room
  nodup := List.nodup_nil
  free := List.forall_mem_nil _
  contents := rfl

/-- A literal is made and holds its value, if there is room. -/
theorem literal_of_room (room : b.forest.size < maxWord) :
    ∃ id c, literal v span b = .ok id c ∧ c.forest.literal? id = some v := by
  have hmade : literal v span b
      = .ok ⟨b.forest.size⟩ { b with forest := b.forest.add (.literal v) span none } :=
    onForest_eq_ok_iff.2 ⟨_, Forest.insert_eq_ok_iff.2 ⟨admits_literal room, rfl, rfl⟩, rfl⟩
  refine ⟨_, _, hmade, ?_⟩
  rw [Forest.literal?, (insert_ok hmade).2.2.2.1]
  rfl

/-- Without room a literal is refused. -/
theorem literal_of_full (full : ¬ b.forest.size < maxWord) :
    literal v span b = .error .full b := by
  have hplace : Forest.nextPlace b.forest.size = .error .full := if_neg full
  have hrefused : Forest.insert (.literal v) span b.forest = .error .full b.forest := by
    rw [Forest.insert, Forest.checkNode, hplace]
  rw [literal, insert, onForest, hrefused]

/-- A literal of the source is made with the value of the text. -/
theorem literalFromSource_of_parse {kind : LiteralKind} (hslice : span.slice? b.source = some text)
    (hparse : Literal.parse kind text = .ok v) :
    literalFromSource kind span b = literal v span b := by
  have hread : readSource kind span b = .ok v b := by
    simp only [readSource, hslice, hparse]
  exact Step.bind_of_ok hread

end Builder

namespace Literal

/-- **A value is read back from its text, and so is a literal of a source.**  Blanks around the text
do not count.  A float that is not a number is read back as one that is not a number. -/
theorem parse_render (v : Literal) {left right : List Char}
    (hleft : ∀ c ∈ left, Text.isBlank c = true) (hright : ∀ c ∈ right, Text.isBlank c = true)
    {text : String} (htext : text.toList = left ++ v.render.toList ++ right) :
    (¬ v.IsNaN → parse v.kind text = .ok v)
      ∧ (v.IsNaN → ∃ found : Literal, found.IsNaN ∧ parse v.kind text = .ok found)
      ∧ ∀ (b : Builder) (span : Span), span.slice? b.source = some text → ¬ v.IsNaN →
        (b.forest.size < maxWord → ∃ id c, Builder.literalFromSource v.kind span b = .ok id c
            ∧ c.forest.literal? id = some v)
          ∧ (¬ b.forest.size < maxWord →
            Builder.literalFromSource v.kind span b = .error .full b) := by
  have hread : read? v.kind text.toList = read? v.kind v.render.toList := by
    rw [htext, read?_surrounded _ _ hleft hright]
  have hparse : ¬ v.IsNaN → parse v.kind text = .ok v :=
    fun hnumber => parse_eq_ok_iff.2 (hread.trans (read?_render hnumber))
  refine ⟨hparse, fun hnan => ?_, fun b span hslice hnumber => ?_⟩
  · obtain ⟨found, hfound, hrender⟩ := exists_read?_render_of_isNaN hnan
    exact ⟨found, hfound, parse_eq_ok_iff.2 (hread.trans hrender)⟩
  · rw [Builder.literalFromSource_of_parse hslice (hparse hnumber)]
    exact ⟨Builder.literal_of_room, Builder.literal_of_full⟩

/-- The least positive float and what is not a number, with blanks and under a span. -/
theorem parse_render_least :
    parse .float "\u20035e-324\n" = .ok (.float ⟨1⟩)
      ∧ (∃ found : Literal, found.IsNaN ∧ parse .float "NaN" = .ok found)
      ∧ ∃ id c, Builder.literalFromSource .float ⟨4, 10⟩
          (Builder.start .fresh "x = 5e-324;" none) = .ok id c
        ∧ c.forest.literal? id = some (.float ⟨1⟩) := by
  have hnumber : ¬ (float ⟨1⟩).IsNaN := by
    change ¬ Binary64.isNaN ⟨1⟩ = true
    decide
  have hnan : (float ⟨0x7ff0000000000001⟩).IsNaN := by
    change Binary64.isNaN ⟨0x7ff0000000000001⟩ = true
    decide
  have hnone : ∀ c ∈ ([] : List Char), Text.isBlank c = true := List.forall_mem_nil _
  have hquad : ∀ c ∈ ['\u2003'], Text.isBlank c = true := List.forall_mem_singleton.2 rfl
  have hline : ∀ c ∈ ['\n'], Text.isBlank c = true := List.forall_mem_singleton.2 rfl
  have htext : (float ⟨1⟩).render.toList = "5e-324".toList := by decide +kernel
  have hwide : "\u20035e-324\n".toList = ['\u2003'] ++ (float ⟨1⟩).render.toList ++ ['\n'] := by
    rw [htext]
    decide
  have hbare : "5e-324".toList = [] ++ (float ⟨1⟩).render.toList ++ [] := by
    rw [htext]
    decide
  have hword : "NaN".toList = [] ++ (float ⟨0x7ff0000000000001⟩).render.toList ++ [] := by decide
  refine ⟨(parse_render _ hquad hline hwide).1 hnumber,
    (parse_render _ hnone hnone hword).2.1 hnan, ?_⟩
  exact ((parse_render _ hnone hnone hbare).2.2 (Builder.start .fresh "x = 5e-324;" none) ⟨4, 10⟩
    (by decide) hnumber).1 (by decide)

end Literal

end SyntaxForest
