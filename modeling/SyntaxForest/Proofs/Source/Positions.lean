/-
**Positions in a source.**

A line table finds the position of an offset by halving an array of line starts and by counting
characters from the start it has found.  Neither says what the position is.  An offset stands after
some text of the source, the characters that end at or before it, and its position is the place
where that text ends: one line more than the text has newlines, and one column more than there are
characters after the last of them.  This holds of every offset, also of one inside a character or
past the end, as long as the offsets of the source are 32-bit numbers.

Main definitions:

* `Text.before` — the characters of a text that end at or before an offset;
* `Position.after` — the position after a text.

Main results:

* `Text.exists_before_append` — what comes after those characters ends after the offset;
* `LineTable.bisect_append` — halving finds where the larger entries start;
* `LineTable.position_ofSource` — **the table of a source finds the position after the text before
  an offset.**
-/

import SyntaxForest.Source.LineTable
import Mathlib.Data.List.Induction

set_option relaxedAutoImplicit false
set_option autoImplicit false

namespace SyntaxForest

/-! ### The text before an offset -/

namespace Text

/-- The characters of a text that end at or before an offset. -/
def before : List Char → (offset : Nat) → List Char
  | [], _ => []
  | c :: rest, offset => if c.utf8Size ≤ offset then c :: before rest (offset - c.utf8Size) else []

variable {text : List Char} {offset : Nat}

theorem before_zero (text : List Char) : before text 0 = [] := by
  cases text with
  | nil => rfl
  | cons c rest => exact if_neg (Nat.not_le.2 c.utf8Size_pos)

/-- The last cut at or before an offset is the end of the text before it. -/
theorem floorBoundary_eq (text : List Char) (offset : Nat) :
    floorBoundary text offset = byteLength (before text offset) := by
  induction text generalizing offset with
  | nil => rfl
  | cons c rest ih =>
      rw [floorBoundary, before]
      split
      · rw [ih, byteLength]
      · rfl

/-- A text goes on after what is before an offset with a character that ends after the offset. -/
theorem exists_before_append (text : List Char) (offset : Nat) :
    ∃ rest, text = before text offset ++ rest
      ∧ ∀ c later, rest = c :: later → offset < byteLength (before text offset) + c.utf8Size := by
  induction text generalizing offset with
  | nil => exact ⟨[], rfl, fun c later h => (nomatch h)⟩
  | cons first others ih =>
      rw [before]
      split
      · next hends =>
          obtain ⟨rest, hrest, hfirst⟩ := ih (offset - first.utf8Size)
          refine ⟨rest, by rw [List.cons_append, ← hrest], fun c later h => ?_⟩
          have := hfirst c later h
          rw [byteLength]
          omega
      · next hends =>
          refine ⟨first :: others, rfl, fun c later h => ?_⟩
          obtain ⟨rfl, -⟩ := List.cons.inj h
          rw [byteLength]
          omega

theorem byteLength_before_le (text : List Char) (offset : Nat) :
    byteLength (before text offset) ≤ offset := by
  rw [← floorBoundary_eq]
  exact floorBoundary_le text offset

/-- A text is some whole lines and a part of a line. -/
theorem exists_lines (text : List Char) :
    ∃ lines last, text = lines ++ last ∧ '\n' ∉ last
      ∧ (lines = [] ∨ ∃ earlier, lines = earlier ++ ['\n']) := by
  induction text using List.reverseRecOn with
  | nil => exact ⟨[], [], rfl, List.not_mem_nil, Or.inl rfl⟩
  | append_singleton text c ih =>
      by_cases hc : c = '\n'
      · exact ⟨text ++ [c], [], by simp, List.not_mem_nil, Or.inr ⟨text, by rw [hc]⟩⟩
      · obtain ⟨lines, last, rfl, hlast, hlines⟩ := ih
        refine ⟨lines, last ++ [c], by rw [List.append_assoc], ?_, hlines⟩
        simp only [List.mem_append, List.mem_singleton, not_or]
        exact ⟨hlast, fun h => hc h.symm⟩

end Text

/-- The position after a text: a line for each newline, and a column for each character after the
last of them. -/
def Position.after (text : List Char) : Position :=
  ⟨text.count '\n' + 1, (text.reverse.takeWhile (· ≠ '\n')).length + 1⟩

/-- The last line of a text is counted in its column. -/
theorem Position.after_append {lines last : List Char} (hlast : '\n' ∉ last)
    (hlines : lines = [] ∨ ∃ earlier, lines = earlier ++ ['\n']) :
    Position.after (lines ++ last) = ⟨lines.count '\n' + 1, last.length + 1⟩ := by
  have hrest : (lines.reverse.takeWhile (· ≠ '\n')) = [] := by
    rcases hlines with rfl | ⟨earlier, rfl⟩
    · rfl
    · simp
  have hall : ∀ c ∈ last.reverse, decide (c ≠ '\n') = true := by
    intro c hc
    refine decide_eq_true fun h => hlast ?_
    rw [← h]
    exact List.mem_reverse.1 hc
  rw [after, List.count_append, List.count_eq_zero.2 hlast, List.reverse_append,
    List.takeWhile_append_of_pos hall, hrest, List.append_nil, List.length_reverse, Nat.add_zero]

/-! ### The starts of lines -/

namespace LineTable

open Text

variable {text rest : List Char} {place offset start : Nat}

/-- The starts of the lines of a text are followed by those of what comes after it. -/
theorem startsAfter_append (fits : place + byteLength text ≤ maxWord) :
    startsAfter (text ++ rest) place
      = startsAfter text place ++ startsAfter rest (place + byteLength text) := by
  induction text generalizing place with
  | nil => rfl
  | cons c later ih =>
      rw [byteLength] at fits
      rw [List.cons_append, startsAfter, startsAfter]
      by_cases hc : c = '\n'
      · subst hc
        have hsize : Char.utf8Size '\n' = 1 := rfl
        rw [hsize] at fits
        rw [if_pos rfl, if_pos rfl, if_pos (by omega), if_pos (by omega), ih (by omega),
          List.cons_append, byteLength, hsize, Nat.add_assoc]
      · rw [if_neg hc, if_neg hc, ih (by omega), byteLength, Nat.add_assoc]

/-- No line but the first starts where the text does. -/
theorem lt_of_mem_startsAfter (h : start ∈ startsAfter text place) : place < start := by
  induction text generalizing place with
  | nil => cases h
  | cons c later ih =>
      rw [startsAfter] at h
      split at h
      · split at h
        · rcases List.mem_cons.1 h with rfl | h
          · omega
          · have := ih h
            omega
        · cases h
      · have := ih h
        omega

/-- A line starts after the first character of the text. -/
theorem first_le_of_mem_startsAfter {c : Char} (h : start ∈ startsAfter (c :: text) place) :
    place + c.utf8Size ≤ start := by
  rw [startsAfter] at h
  split at h
  · next hc =>
      have hsize : c.utf8Size = 1 := by
        rw [hc]
        rfl
      split at h
      · rcases List.mem_cons.1 h with rfl | h
        · omega
        · have := lt_of_mem_startsAfter h
          omega
      · cases h
  · exact Nat.le_of_lt (lt_of_mem_startsAfter h)

/-- No line of a text starts after its end. -/
theorem le_of_mem_startsAfter (h : start ∈ startsAfter text place) :
    start ≤ place + byteLength text := by
  induction text generalizing place with
  | nil => cases h
  | cons c later ih =>
      rw [startsAfter] at h
      rw [byteLength]
      split at h
      · next hc =>
          subst hc
          have hsize : Char.utf8Size '\n' = 1 := rfl
          split at h
          · rcases List.mem_cons.1 h with rfl | h
            · omega
            · have := ih h
              omega
          · cases h
      · have := ih h
        omega

/-- There are as many starts as newlines. -/
theorem length_startsAfter (fits : place + byteLength text ≤ maxWord) :
    (startsAfter text place).length = text.count '\n' := by
  induction text generalizing place with
  | nil => rfl
  | cons c later ih =>
      rw [byteLength] at fits
      rw [startsAfter]
      by_cases hc : c = '\n'
      · subst hc
        have hsize : Char.utf8Size '\n' = 1 := rfl
        rw [hsize] at fits
        rw [if_pos rfl, if_pos (by omega), List.length_cons, ih (by omega), List.count_cons_self]
      · rw [if_neg hc, ih (by omega), List.count_cons_of_ne hc]

/-- The last line of a text starts where its whole lines end. -/
theorem getLast_startsAfter {lines last : List Char} (hlast : '\n' ∉ last)
    (hlines : lines = [] ∨ ∃ earlier, lines = earlier ++ ['\n'])
    (fits : byteLength (lines ++ last) ≤ maxWord) :
    (0 :: startsAfter (lines ++ last) 0).getLast? = some (byteLength lines) := by
  rw [byteLength_append] at fits
  have hnone : startsAfter last (0 + byteLength lines) = [] := by
    refine List.length_eq_zero_iff.1 ?_
    rw [length_startsAfter (by omega), List.count_eq_zero.2 hlast]
  rw [startsAfter_append (by omega), hnone, List.append_nil]
  rcases hlines with rfl | ⟨earlier, rfl⟩
  · rfl
  · have hsize : byteLength ['\n'] = 1 := rfl
    rw [byteLength_append, hsize] at fits
    rw [startsAfter_append (by omega), startsAfter, if_pos rfl, if_pos (by omega), startsAfter,
      ← List.cons_append, List.getLast?_concat, byteLength_append, hsize, Nat.zero_add]

/-! ### Halving -/

/-- **Halving finds where the entries start that are greater than an offset.** -/
theorem bisect_append {small large : List Nat} {low high : Nat}
    (hsmall : ∀ entry ∈ small, entry ≤ offset) (hlarge : ∀ entry ∈ large, offset < entry)
    (hlow : low ≤ small.length) (hhigh : small.length ≤ high)
    (inside : high ≤ (small ++ large).length) :
    bisect (small ++ large).toArray offset low high = small.length := by
  fun_induction bisect (small ++ large).toArray offset low high with
  | case1 low high hlt middle hle ih =>
      refine ih ?_ hhigh inside
      -- the middle entry is not greater, so it is not among the last ones
      refine Nat.not_lt.1 fun hlt' => ?_
      have hmiddle : middle < (small ++ large).length := by omega
      have hentry : (small ++ large)[middle] ∈ large := by
        rw [List.getElem_append_right (by omega)]
        exact List.getElem_mem _
      have := hlarge _ hentry
      rw [Array.getD_eq_getD_getElem?, List.getElem?_toArray, List.getElem?_eq_getElem hmiddle,
        Option.getD_some] at hle
      omega
  | case2 low high hlt middle hgt ih =>
      refine ih hlow ?_ (by omega)
      -- the middle entry is greater, so it is not among the first ones
      refine Nat.not_lt.1 fun hlt' => hgt ?_
      have hmiddle : middle < (small ++ large).length := by omega
      rw [Array.getD_eq_getD_getElem?, List.getElem?_toArray, List.getElem?_eq_getElem hmiddle,
        Option.getD_some, List.getElem_append_left hlt']
      exact hsmall _ (List.getElem_mem _)
  | case3 low high hge => omega

/-! ### Positions -/

/-- The line that starts where the whole lines before an offset end has as many characters before
the offset as come after those lines. -/
theorem column_eq {source lines last : List Char} (h : before source offset = lines ++ last) :
    Source.column source (byteLength lines) offset = last.length + 1 := by
  obtain ⟨rest, hsource, -⟩ := exists_before_append source offset
  have hslice : slice? source (byteLength lines) (byteLength lines + byteLength last)
      = some last := by
    rw [hsource, h, List.append_assoc]
    exact slice?_append_append lines last rest
  rw [Source.column, floorBoundary_eq, h, byteLength_append, hslice]

/-- The lines of a source that start at or before an offset are those of the text before it. -/
theorem exists_starts {source : List Char} (fits : byteLength source ≤ maxWord) (offset : Nat) :
    ∃ later, (ofSource source).starts
        = ((0 :: startsAfter (before source offset) 0) ++ later).toArray
      ∧ (∀ entry ∈ 0 :: startsAfter (before source offset) 0, entry ≤ offset)
      ∧ (∀ entry ∈ later, offset < entry)
      ∧ (0 :: startsAfter (before source offset) 0).length
        = (before source offset).count '\n' + 1 := by
  obtain ⟨rest, hsource, hrest⟩ := exists_before_append source offset
  have hend := byteLength_before_le source offset
  have hfits : byteLength (before source offset) ≤ maxWord := by
    rw [hsource, byteLength_append] at fits
    omega
  -- the starts after line breaks before the offset, then the others
  have hsplit : startsAfter source 0 = startsAfter (before source offset) 0
      ++ startsAfter rest (byteLength (before source offset)) := by
    rw [← Nat.zero_add (byteLength (before source offset)), ← startsAfter_append (by omega),
      ← hsource]
  refine ⟨startsAfter rest (byteLength (before source offset)), ?_, fun entry he => ?_,
    fun entry he => ?_, ?_⟩
  · rw [ofSource, hsplit, List.cons_append]
  · rcases List.mem_cons.1 he with rfl | he
    · exact Nat.zero_le _
    · have := le_of_mem_startsAfter he
      omega
  · cases rest with
    | nil => cases he
    | cons c later => exact Nat.lt_of_lt_of_le (hrest c later rfl) (first_le_of_mem_startsAfter he)
  · rw [List.length_cons, length_startsAfter (by omega)]

/-- The table of a source finds the line after the newlines before an offset. -/
theorem lineOf_ofSource {source : List Char} (fits : byteLength source ≤ maxWord) (offset : Nat) :
    (ofSource source).lineOf offset = (before source offset).count '\n' + 1 := by
  obtain ⟨later, hstarts, hsmall, hlarge, hcount⟩ := exists_starts fits offset
  have hbisect : bisect (ofSource source).starts offset 0 (ofSource source).starts.size
      = (before source offset).count '\n' + 1 := by
    rw [hstarts, bisect_append hsmall hlarge (Nat.zero_le _) ?_ ?_, hcount]
    · rw [List.size_toArray, List.length_append]
      exact Nat.le_add_right _ _
    · exact Nat.le_of_eq List.size_toArray
  rw [lineOf, hbisect]
  omega

/-- The line of an offset starts where the whole lines before the offset end. -/
theorem start?_lineOf {source lines last : List Char} (fits : byteLength source ≤ maxWord)
    (hbefore : before source offset = lines ++ last) (hlast : '\n' ∉ last)
    (hlines : lines = [] ∨ ∃ earlier, lines = earlier ++ ['\n']) :
    (ofSource source).start? ((ofSource source).lineOf offset) = some (byteLength lines) := by
  obtain ⟨later, hstarts, -, -, hcount⟩ := exists_starts fits offset
  have hfits : byteLength (before source offset) ≤ maxWord := by
    obtain ⟨rest, hsource, -⟩ := exists_before_append source offset
    rw [hsource, byteLength_append] at fits
    omega
  rw [lineOf_ofSource fits, start?, hstarts, List.getElem?_toArray,
    List.getElem?_append_left (by omega), ← getLast_startsAfter hlast hlines (hbefore ▸ hfits),
    ← hbefore, List.getLast?_eq_getElem?, hcount, Nat.add_sub_cancel]

/-- The line after that of an offset starts after the offset. -/
theorem lt_of_start?_lineOf_succ {source : List Char} (fits : byteLength source ≤ maxWord)
    (hnext : (ofSource source).start? ((ofSource source).lineOf offset + 1) = some start) :
    offset < start := by
  obtain ⟨later, hstarts, -, hlarge, hcount⟩ := exists_starts fits offset
  rw [lineOf_ofSource fits, start?, hstarts, List.getElem?_toArray,
    List.getElem?_append_right (by omega)] at hnext
  exact hlarge start (List.mem_of_getElem? hnext)

/-- **The table of a source finds the position after the text before an offset.** -/
theorem position_ofSource {source : List Char} (fits : byteLength source ≤ maxWord)
    (offset : Nat) :
    (ofSource source).position source offset = Position.after (before source offset) := by
  obtain ⟨lines, last, hbefore, hlast, hlines⟩ := exists_lines (before source offset)
  have hafter : Position.after (before source offset)
      = ⟨lines.count '\n' + 1, last.length + 1⟩ := by
    rw [hbefore, Position.after_append hlast hlines]
  rw [position, start?_lineOf fits hbefore hlast hlines, Option.getD_some, column_eq hbefore,
    lineOf_ofSource fits, hafter]
  congr 2
  rw [hbefore, List.count_append, List.count_eq_zero.2 hlast, Nat.add_zero]

end LineTable

end SyntaxForest
