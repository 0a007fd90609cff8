/-
**Written forms stay on one line.**

A name may hold line breaks like any other characters, but between quotes a line break is written
as a backslash and a letter, and a character that is given by its code point is given in hexadecimal
digits.  The text of a literal consists of plain characters, and a sort and a type are written
without line breaks.  Hence lines that are put together from such texts, each with a line break
after it, can be told apart again by their line breaks.

Main definitions:

* `Text.unlines` — lines one after the other, each with a line break after it.

Main results:

* `Text.newline_notMem_quote`, `Literal.newline_notMem_render`, `Tag.newline_notMem_name`,
  `TypeId.newline_notMem_describe` — **written forms stay on one line**;
* `Text.count_unlines`, `Text.splitOn_unlines` — lines are counted and told apart by their line
  breaks.
-/

import SyntaxForest.Proofs.Numeral.FloatText
import SyntaxForest.Syntax.Handle
import SyntaxForest.Syntax.LiteralText
import SyntaxForest.Text.Quoted

set_option relaxedAutoImplicit false
set_option autoImplicit false

namespace SyntaxForest

namespace Text

/-! ### Quoted texts -/

theorem newline_notMem_toDigits (n : Nat) : '\n' ∉ Nat.toDigits 16 n := by
  induction n using Nat.strongRecOn with
  | _ n ih =>
      rw [Nat.toDigits_eq_if (by decide)]
      split
      · simp
      · have hrest := ih (n / 16) (by omega)
        simp [hrest]

theorem newline_notMem_escape (c : Char) : '\n' ∉ escape c := by
  fun_cases escape c with
  | case7 => simpa [codeEscape] using newline_notMem_toDigits c.toNat
  | case8 _ _ _ hc => simpa using Ne.symm hc
  | _ => decide

/-- **A quoted text stays on one line,** whatever it holds. -/
theorem newline_notMem_quote (text : List Char) : '\n' ∉ quote text := by
  have hescaped : '\n' ∉ text.flatMap escape := fun h => by
    obtain ⟨c, -, hc⟩ := List.mem_flatMap.1 h
    exact newline_notMem_escape c hc
  simpa [quote] using hescaped

theorem newline_notMem_quoted (text : String) : '\n' ∉ (quoted text).toList := by
  rw [quoted, String.toList_ofList]
  exact newline_notMem_quote text.toList

/-! ### Plain texts -/

theorem newline_notMem_of_isPlain {text : List Char} (h : ∀ c ∈ text, IsPlain c) :
    '\n' ∉ text := fun hm => absurd (h '\n' hm).1 (by decide)

/-- Words with blanks between them stay on one line if each of them does. -/
theorem newline_notMem_intercalate {words : List String}
    (h : ∀ word ∈ words, '\n' ∉ word.toList) : '\n' ∉ (" ".intercalate words).toList := by
  induction words with
  | nil => simp
  | cons word rest ih =>
      rw [List.forall_mem_cons] at h
      cases rest with
      | nil => simpa using h.1
      | cons next rest =>
          simp only [String.intercalate_cons_cons, String.toList_append, List.mem_append]
          rintro ((hword | hblank) | hrest)
          · exact h.1 hword
          · exact absurd hblank (by decide)
          · exact ih h.2 hrest

/-! ### Lines -/

/-- Lines one after the other, each with a line break after it. -/
def unlines (lines : List String) : String := String.join (lines.map (· ++ "\n"))

theorem toList_unlines (lines : List String) :
    (unlines lines).toList = lines.flatMap fun line => line.toList ++ ['\n'] := by
  simp [unlines, String.toList_join, List.flatMap_map]

/-- There are as many line breaks as lines. -/
theorem count_unlines {lines : List String} (h : ∀ line ∈ lines, '\n' ∉ line.toList) :
    (unlines lines).toList.count '\n' = lines.length := by
  rw [toList_unlines]
  induction lines with
  | nil => rfl
  | cons line rest ih =>
      rw [List.forall_mem_cons] at h
      rw [List.flatMap_cons, List.count_append, List.count_append, ih h.2,
        List.count_eq_zero_of_not_mem h.1, List.length_cons, List.count_singleton_self]
      omega

/-- **Lines are told apart by their line breaks,** after the last of which nothing comes. -/
theorem splitOn_unlines {lines : List String} (h : ∀ line ∈ lines, '\n' ∉ line.toList) :
    (unlines lines).toList.splitOn '\n' = lines.map String.toList ++ [[]] := by
  rw [toList_unlines]
  induction lines with
  | nil => rfl
  | cons line rest ih =>
      rw [List.forall_mem_cons] at h
      rw [List.flatMap_cons, List.append_assoc, List.singleton_append,
        List.splitOn_append_cons_self_of_not_mem h.1, ih h.2, List.map_cons, List.cons_append]

end Text

/-! ### Literals, sorts and types -/

theorem Literal.newline_notMem_render (v : Literal) : '\n' ∉ v.render.toList := by
  cases v with
  | integer value =>
      rw [render, String.toList_ofList]
      exact Text.newline_notMem_of_isPlain (Numeral.isPlain_decimalText value.toInt)
  | float value =>
      rw [render, String.toList_ofList]
      exact Text.newline_notMem_of_isPlain value.isPlain_of_mem_text
  | boolean value => cases value <;> decide
  | null => decide

theorem Tag.newline_notMem_name (tag : Tag) : '\n' ∉ tag.name.toList := by
  cases tag <;> decide

theorem TypeId.newline_notMem_describe (t : TypeId) : '\n' ∉ t.describe.toList := by
  have hdigits : '\n' ∉ Nat.toDigits 10 t.raw := Text.newline_notMem_of_isPlain fun c hc =>
    Text.isPlain_of_isDigit (Numeral.isDigit_of_mem_toDigits hc)
  have htext : t.describe.toList = "TypeId(".toList ++ (Nat.toDigits 10 t.raw ++ [')']) := by
    simp only [describe, String.toList_append, String.append_assoc, Nat.toString_eq_ofList_toDigits,
      String.toList_ofList]
    rfl
  rw [htext]
  simpa using hdigits

end SyntaxForest
