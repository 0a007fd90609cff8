/-
**Blank characters and trimming.**

A literal is read from source text without the white space around it.  White space is the Unicode
property White_Space: twenty-five characters, among them the no-break spaces, the line and
paragraph separators and the ideographic space, but not the zero-width ones.

Main definitions:

* `Text.isBlank` — a white-space character;
* `Text.trim` — a text without the blanks at its two ends.

Main results:

* `Text.trim_eq_self` — a text that neither starts nor ends with a blank is left alone;
* `Text.trim_append_append` — blanks around a text are trimmed off.
-/

set_option relaxedAutoImplicit false
set_option autoImplicit false

namespace SyntaxForest

namespace Text

/-- A character with the property White_Space. -/
def isBlank (c : Char) : Bool :=
  let code := c.toNat
  (0x09 ≤ code && code ≤ 0x0d) || code == 0x20 || code == 0x85 || code == 0xa0
    || code == 0x1680 || (0x2000 ≤ code && code ≤ 0x200a) || code == 0x2028 || code == 0x2029
    || code == 0x202f || code == 0x205f || code == 0x3000

/-- A text without its leading and trailing blanks. -/
def trim (text : List Char) : List Char :=
  ((text.dropWhile isBlank).reverse.dropWhile isBlank).reverse

/-- Blanks around a text are trimmed off with the text's own. -/
theorem trim_append_append {left right : List Char} (text : List Char)
    (before : ∀ c ∈ left, isBlank c = true) (after : ∀ c ∈ right, isBlank c = true) :
    trim (left ++ text ++ right) = trim text := by
  have gone : right.dropWhile isBlank = [] := by
    have drop : (right ++ []).dropWhile isBlank = [].dropWhile isBlank :=
      List.dropWhile_append_of_pos after
    rwa [List.append_nil, List.dropWhile_nil] at drop
  have reversed : ∀ c ∈ right.reverse, isBlank c = true := by simpa using after
  rw [trim, List.append_assoc, List.dropWhile_append_of_pos before, List.dropWhile_append]
  split
  · next empty =>
    rw [gone, trim, List.isEmpty_iff.1 empty]
  · rw [List.reverse_append, List.dropWhile_append_of_pos reversed, trim]

/-- A text whose first and last characters are not blank is its own trimming. -/
theorem trim_eq_self {text : List Char} (first : ∀ c ∈ text.head?, isBlank c = false)
    (last : ∀ c ∈ text.getLast?, isBlank c = false) : trim text = text := by
  have keep : ∀ cs : List Char, (∀ c ∈ cs.head?, isBlank c = false) →
      cs.dropWhile isBlank = cs := by
    intro cs h
    cases cs with
    | nil => rfl
    | cons c cs => simp [List.dropWhile, h c (by simp)]
  rw [trim, keep text first, keep text.reverse (by simpa using last), List.reverse_reverse]

end Text

end SyntaxForest
