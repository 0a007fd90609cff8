/-
**Two ways to find a position, and what they find.**

A position is found by reading a source up to an offset, or in a table of line starts.  The reader
stops in the middle of a character if the offset lies there, and the table knows nothing of
characters; both answer with the position after the text before the offset.  What that position is
can be said of the bytes of the source alone: the line is told by the newlines among the bytes
before the offset, which are never a part of another character, and the column by the characters of
that line that end by then.

Main definitions:

* `Source.newlinesBefore` — the newlines among the bytes of a source before an offset;
* `Position.counted` — a position told by counting bytes and characters.

Main results:

* `Position.scan_eq` — **reading finds the position after the text before an offset**;
* `Text.count_take_flatMap` — the newlines among the bytes before an offset are those of that text;
* `Position.after_before_eq` — **the position after that text is the counted one.**
-/

import SyntaxForest.Proofs.Source.Positions
import Mathlib.Data.Nat.Count
import Mathlib.Order.Interval.Finset.Nat

set_option relaxedAutoImplicit false
set_option autoImplicit false

namespace SyntaxForest

/-! ### Reading up to an offset -/

namespace Source

open Text

variable {head rest : List Char} {c : Char} {place offset newlines lineStart : Nat}

theorem lineBefore_newline (begins : place < offset) :
    lineBefore offset ('\n' :: rest) place newlines lineStart
      = lineBefore offset rest (place + 1) (newlines + 1) (place + 1) := by
  rw [lineBefore, if_pos begins, if_pos rfl]

theorem lineBefore_of_ne (hc : c ≠ '\n') (begins : place < offset) :
    lineBefore offset (c :: rest) place newlines lineStart
      = lineBefore offset rest (place + c.utf8Size) newlines lineStart := by
  rw [lineBefore, if_pos begins, if_neg hc]

/-- A text that ends at or before the offset is read whole. -/
theorem lineBefore_append (ends : place + byteLength head ≤ offset) :
    lineBefore offset (head ++ rest) place newlines lineStart
      = lineBefore offset rest (place + byteLength head)
          (lineBefore offset head place newlines lineStart).1
          (lineBefore offset head place newlines lineStart).2 := by
  induction head generalizing place newlines lineStart with
  | nil => rfl
  | cons c later ih =>
      have hpositive := c.utf8Size_pos
      rw [byteLength] at ends
      rw [List.cons_append]
      by_cases hc : c = '\n'
      · subst hc
        have hsize : Char.utf8Size '\n' = 1 := rfl
        rw [lineBefore_newline (by omega), lineBefore_newline (by omega), ih (by omega), byteLength,
          hsize, Nat.add_assoc]
      · rw [lineBefore_of_ne hc (by omega), lineBefore_of_ne hc (by omega), ih (by omega),
          byteLength, Nat.add_assoc]

/-- A part of a line brings no newline. -/
theorem lineBefore_of_not_mem (hhead : '\n' ∉ head) :
    lineBefore offset head place newlines lineStart = (newlines, lineStart) := by
  induction head generalizing place with
  | nil => rfl
  | cons c later ih =>
      rw [List.mem_cons, not_or] at hhead
      rw [lineBefore, if_neg (Ne.symm hhead.1), ih hhead.2]
      exact ite_self _

/-- The newlines of a text that ends at or before the offset are counted. -/
theorem lineBefore_fst (ends : place + byteLength head ≤ offset) :
    (lineBefore offset head place newlines lineStart).1 = newlines + head.count '\n' := by
  induction head generalizing place newlines lineStart with
  | nil => rfl
  | cons c later ih =>
      have hpositive := c.utf8Size_pos
      rw [byteLength] at ends
      by_cases hc : c = '\n'
      · subst hc
        have hsize : Char.utf8Size '\n' = 1 := rfl
        rw [lineBefore_newline (by omega), ih (by omega), List.count_cons_self]
        omega
      · rw [lineBefore_of_ne hc (by omega), ih (by omega), List.count_cons_of_ne hc]

/-- A text that goes on with a character that ends after the offset has no newline there: a
character that the offset cuts is longer than a newline. -/
theorem lineBefore_of_lt (first : ∀ c later, rest = c :: later → offset < place + c.utf8Size) :
    lineBefore offset rest place newlines lineStart = (newlines, lineStart) := by
  cases rest with
  | nil => rfl
  | cons c later =>
      have hlt := first c later rfl
      by_cases hbegins : place < offset
      · have hc : c ≠ '\n' := by
          rintro rfl
          have hsize : Char.utf8Size '\n' = 1 := rfl
          omega
        rw [lineBefore_of_ne hc hbegins]
        -- the next character, if there is one, begins after the offset
        cases later with
        | nil => rfl
        | cons _ _ => exact if_neg (Nat.not_lt.2 (Nat.le_of_lt hlt))
      · exact if_neg hbegins

/-- Whole lines lead to the start of the next one. -/
theorem lineBefore_lines {lines : List Char} (ends : byteLength lines ≤ offset)
    (hlines : lines = [] ∨ ∃ earlier, lines = earlier ++ ['\n']) :
    lineBefore offset lines 0 0 0 = (lines.count '\n', byteLength lines) := by
  refine Prod.ext ((lineBefore_fst (by omega)).trans (Nat.zero_add _)) ?_
  rcases hlines with rfl | ⟨earlier, rfl⟩
  · rfl
  · have hsize : byteLength ['\n'] = 1 := rfl
    rw [byteLength_append, hsize] at ends
    rw [lineBefore_append (by omega), lineBefore, if_pos (by omega), if_pos rfl, lineBefore,
      byteLength_append, hsize, Nat.zero_add]

end Source

namespace Position

open Text

/-- **Reading a source finds the position after the text before an offset.** -/
theorem scan_eq (source : List Char) (offset : Nat) :
    scan source offset = after (before source offset) := by
  obtain ⟨rest, hsource, hrest⟩ := exists_before_append source offset
  obtain ⟨lines, last, hbefore, hlast, hlines⟩ := exists_lines (before source offset)
  have hend := byteLength_before_le source offset
  have hsplit : byteLength (before source offset) = byteLength lines + byteLength last := by
    rw [hbefore, byteLength_append]
  have hscan : Source.lineBefore offset source 0 0 0
      = ((before source offset).count '\n', byteLength lines) := by
    rw [hsource, Source.lineBefore_append (by omega),
      Source.lineBefore_of_lt fun c later h => Nat.zero_add _ ▸ hrest c later h, ← hsource, hbefore,
      Source.lineBefore_append (by omega), Source.lineBefore_lines (by omega) hlines,
      Source.lineBefore_of_not_mem hlast, List.count_append, List.count_eq_zero.2 hlast,
      Nat.add_zero]
  rw [scan, hscan]
  show Position.mk _ (Source.column source (byteLength lines) offset) = _
  rw [LineTable.column_eq hbefore, hbefore, after_append hlast hlines, List.count_append,
    List.count_eq_zero.2 hlast, Nat.add_zero]

end Position

/-! ### Bytes -/

/-- The newlines among the bytes of a source before an offset. -/
def Source.newlinesBefore (source : String) (offset : Nat) : Nat :=
  (source.toUTF8.data.toList.take (min offset source.utf8ByteSize)).count 0x0a

namespace Text

theorem toList_toUTF8 (source : String) :
    source.toUTF8.data.toList = source.toList.flatMap String.utf8EncodeChar := by
  rw [String.toUTF8, ← String.utf8Encode_toList, List.utf8Encode, List.toList_data_toByteArray]

theorem length_flatMap_utf8EncodeChar (text : List Char) :
    (text.flatMap String.utf8EncodeChar).length = byteLength text := by
  induction text with
  | nil => rfl
  | cons c rest ih =>
      rw [List.flatMap_cons, List.length_append, ih, byteLength, String.length_utf8EncodeChar]

/-- Only a newline has the byte of a newline: the bytes of a character of several bytes are all
greater than those of one byte. -/
theorem newline_not_mem_utf8EncodeChar {c : Char} (h : c ≠ '\n') :
    (0x0a : UInt8) ∉ String.utf8EncodeChar c := by
  have hvalue : c.val.toNat ≠ 10 := fun hten => h (Char.ext (UInt32.toNat.inj hten))
  have hbyte : ∀ n : Nat, n % 256 ≠ 10 → (0x0a : UInt8) ≠ UInt8.ofNat n :=
    fun n hn heq => hn (congrArg UInt8.toNat heq).symm
  unfold String.utf8EncodeChar
  simp only
  split
  · rw [List.mem_singleton]
    exact hbyte _ (by omega)
  · split
    · simp only [List.mem_cons, List.not_mem_nil, or_false, not_or]
      exact ⟨hbyte _ (by omega), hbyte _ (by omega)⟩
    · split
      · simp only [List.mem_cons, List.not_mem_nil, or_false, not_or]
        exact ⟨hbyte _ (by omega), hbyte _ (by omega), hbyte _ (by omega)⟩
      · simp only [List.mem_cons, List.not_mem_nil, or_false, not_or]
        exact ⟨hbyte _ (by omega), hbyte _ (by omega), hbyte _ (by omega), hbyte _ (by omega)⟩

theorem count_flatMap_utf8EncodeChar (text : List Char) :
    (text.flatMap String.utf8EncodeChar).count 0x0a = text.count '\n' := by
  induction text with
  | nil => rfl
  | cons c rest ih =>
      rw [List.flatMap_cons, List.count_append, ih]
      by_cases hc : c = '\n'
      · subst hc
        rw [List.count_cons_self, Nat.add_comm]
        rfl
      · rw [List.count_eq_zero.2 (newline_not_mem_utf8EncodeChar hc), List.count_cons_of_ne hc,
          Nat.zero_add]

variable {text rest : List Char} {offset i : Nat}

/-- **The newlines among the bytes before an offset** are those of the text before it: of a
character that the offset cuts, no byte is a newline. -/
theorem count_take_flatMap (text : List Char) (offset : Nat) :
    ((text.flatMap String.utf8EncodeChar).take (min offset (byteLength text))).count 0x0a
      = (before text offset).count '\n' := by
  obtain ⟨rest, htext, hrest⟩ := exists_before_append text offset
  have hend := byteLength_before_le text offset
  have hlength : byteLength text = byteLength (before text offset) + byteLength rest := by
    rw [← byteLength_append, ← htext]
  have hbytes : text.flatMap String.utf8EncodeChar
      = (before text offset).flatMap String.utf8EncodeChar
        ++ rest.flatMap String.utf8EncodeChar := by
    rw [← List.flatMap_append, ← htext]
  -- at most a part of one character is left before the offset, and that is no line break
  have hnone : ((rest.flatMap String.utf8EncodeChar).take
      (min offset (byteLength text) - byteLength (before text offset))).count 0x0a = 0 := by
    cases rest with
    | nil => rw [List.flatMap_nil, List.take_nil, List.count_nil]
    | cons c later =>
        have hlt := hrest c later rfl
        rw [List.flatMap_cons, List.take_append_of_le_length
          (by rw [String.length_utf8EncodeChar]; omega)]
        by_cases hc : c = '\n'
        · subst hc
          have hsize : Char.utf8Size '\n' = 1 := rfl
          rw [show min offset (byteLength text) - byteLength (before text offset) = 0 by omega,
            List.take_zero, List.count_nil]
        · exact List.count_eq_zero.2 fun hmem =>
            newline_not_mem_utf8EncodeChar hc (List.mem_of_mem_take hmem)
  rw [hbytes, List.take_append, length_flatMap_utf8EncodeChar, List.count_append, hnone,
    List.take_of_length_le (by rw [length_flatMap_utf8EncodeChar]; omega),
    count_flatMap_utf8EncodeChar, Nat.add_zero]

theorem byteLength_mono {a b : List Char} (h : a <+: b) : byteLength a ≤ byteLength b := by
  obtain ⟨more, rfl⟩ := h
  rw [byteLength_append]
  exact Nat.le_add_right _ _

/-- The characters that end at or before an offset are the first of a text. -/
theorem byteLength_take_succ_le_iff (inside : i < text.length) :
    byteLength (text.take (i + 1)) ≤ offset ↔ i < (before text offset).length := by
  obtain ⟨rest, htext, hrest⟩ := exists_before_append text offset
  constructor
  · -- the character behind the last whole one ends after the offset
    intro hle
    refine Nat.lt_of_not_le fun hge => ?_
    cases rest with
    | nil =>
        rw [List.append_nil] at htext
        rw [← htext] at hge
        omega
    | cons c later =>
        have hprefix : before text offset ++ [c] <+: text.take (i + 1) := by
          refine List.prefix_take_iff.2 ⟨⟨later, ?_⟩, ?_⟩
          · rw [List.append_assoc, List.singleton_append, ← htext]
          · rw [List.length_append, List.length_singleton]
            omega
        have hlength := byteLength_mono hprefix
        rw [byteLength_append, byteLength, byteLength] at hlength
        have := hrest c later rfl
        omega
  · intro hlt
    have hprefix : text.take (i + 1) <+: before text offset := by
      refine List.prefix_of_prefix_length_le (List.take_prefix _ _) ⟨rest, htext.symm⟩ ?_
      rw [List.length_take]
      omega
    exact Nat.le_trans (byteLength_mono hprefix) (byteLength_before_le text offset)

/-- A character stands on the last line if all newlines stand before it. -/
theorem count_take_eq_iff {lines last : List Char} (hlast : '\n' ∉ last)
    (hlines : lines = [] ∨ ∃ earlier, lines = earlier ++ ['\n']) :
    ((lines ++ last).take i).count '\n' = lines.count '\n' ↔ lines.length ≤ i := by
  rw [List.take_append, List.count_append,
    List.count_eq_zero.2 fun h => hlast (List.mem_of_mem_take h), Nat.add_zero]
  constructor
  · intro heq
    rcases hlines with rfl | ⟨earlier, rfl⟩
    · exact Nat.zero_le _
    · refine Nat.le_of_not_lt fun hlt => ?_
      rw [List.length_append, List.length_singleton] at hlt
      rw [List.take_append_of_le_length (by omega), List.count_append] at heq
      have := (List.take_sublist i earlier).count_le '\n'
      have : ['\n'].count '\n' = 1 := rfl
      omega
  · intro hle
    rw [List.take_of_length_le hle]

/-- The characters of the last line that end at or before an offset are those from the start of that
line to the offset. -/
theorem count_lastLine {lines last : List Char} (hbefore : before text offset = lines ++ last)
    (hlast : '\n' ∉ last) (hlines : lines = [] ∨ ∃ earlier, lines = earlier ++ ['\n']) :
    Nat.count (fun i => (text.take i).count '\n' = lines.count '\n'
        ∧ byteLength (text.take (i + 1)) ≤ min offset (byteLength text)) text.length
      = last.length := by
  obtain ⟨rest, htext, -⟩ := exists_before_append text offset
  have hlength : (before text offset).length = lines.length + last.length := by
    rw [hbefore, List.length_append]
  have hwhole : (before text offset).length ≤ text.length := by
    have := congrArg List.length htext
    rw [List.length_append] at this
    omega
  have htake : ∀ {i : Nat}, i ≤ (before text offset).length →
      text.take i = (before text offset).take i := by
    intro i hle
    conv_lhs => rw [htext]
    exact List.take_append_of_le_length hle
  -- the characters counted are those from the end of the lines to the offset
  rw [Nat.count_eq_card_filter_range, ← Nat.add_sub_cancel_left (n := lines.length)
    (m := last.length), ← hlength, ← Nat.card_Ico]
  refine congrArg Finset.card (Finset.ext fun i => ?_)
  rw [Finset.mem_filter, Finset.mem_range, Finset.mem_Ico]
  refine ⟨fun ⟨hinside, hline, hends⟩ => ?_, fun ⟨hge, hlt⟩ => ?_⟩
  · have hlt := (byteLength_take_succ_le_iff hinside).1 (Nat.le_min.1 hends).1
    rw [htake (Nat.le_of_lt hlt), hbefore, count_take_eq_iff hlast hlines] at hline
    exact ⟨hline, hlt⟩
  · have hinside := Nat.lt_of_lt_of_le hlt hwhole
    refine ⟨hinside, ?_, Nat.le_min.2 ⟨(byteLength_take_succ_le_iff hinside).2 hlt,
      byteLength_mono (List.take_prefix _ _)⟩⟩
    rw [htake (Nat.le_of_lt hlt), hbefore]
    exact (count_take_eq_iff hlast hlines).2 hge

end Text

/-! ### Counted positions -/

/-- The position of an offset, told by counting: the line by the newlines among the bytes before
the offset, the column by the characters of that line that end at or before it. -/
def Position.counted (source : String) (offset : Nat) : Position where
  line := 1 + Source.newlinesBefore source offset
  column := 1 + Nat.count
    (fun i => (source.toList.take i).count '\n' = Source.newlinesBefore source offset
      ∧ Text.byteLength (source.toList.take (i + 1)) ≤ min offset source.utf8ByteSize)
    source.toList.length

theorem Source.newlinesBefore_eq (source : String) (offset : Nat) :
    newlinesBefore source offset = (Text.before source.toList offset).count '\n' := by
  rw [newlinesBefore, Text.toList_toUTF8, ← Text.byteLength_toList, Text.count_take_flatMap]

/-- **The position after the text before an offset is the counted one.** -/
theorem Position.after_before_eq (source : String) (offset : Nat) :
    after (Text.before source.toList offset) = counted source offset := by
  obtain ⟨lines, last, hbefore, hlast, hlines⟩ :=
    Text.exists_lines (Text.before source.toList offset)
  have hnewlines : Source.newlinesBefore source offset = lines.count '\n' := by
    rw [Source.newlinesBefore_eq, hbefore, List.count_append, List.count_eq_zero.2 hlast,
      Nat.add_zero]
  have hcount := Text.count_lastLine hbefore hlast hlines
  rw [Text.byteLength_toList] at hcount
  rw [counted, hnewlines, hcount, hbefore, after_append hlast hlines, Nat.add_comm 1,
    Nat.add_comm 1]

end SyntaxForest
