/-
**Byte offsets into a text.**

Positions in a source text are byte offsets into its UTF-8 form.  A text is kept as its list of
characters; this module cuts it at byte offsets.  An offset inside a character is not a place
where a text can be cut, so the cutting functions answer with an option, and `Text.floorBoundary`
moves such an offset back to the start of its character.

Main definitions:

* `Text.byteLength` — the number of bytes of a text;
* `Text.dropBytes?`, `Text.takeBytes?`, `Text.slice?` — the parts of a text between byte offsets;
* `Text.floorBoundary` — the last place at or before an offset where a text can be cut.

Main results:

* `Text.byteLength_toList` — the bytes of a string are those of its characters;
* `Text.dropBytes?_byteLength_append` — after the bytes of a first part comes the second part;
* `Text.slice?_append_append` — the slice between two cuts is the part between them;
* `Text.floorBoundary_le` — moving back to a cut does not move forward.
-/

set_option relaxedAutoImplicit false
set_option autoImplicit false

namespace SyntaxForest

namespace Text

/-- The number of bytes of a text in UTF-8. -/
def byteLength : List Char → Nat
  | [] => 0
  | c :: rest => c.utf8Size + byteLength rest

/-- The text from a byte offset on, if a character starts there or the text ends there. -/
def dropBytes? : List Char → Nat → Option (List Char)
  | text, 0 => some text
  | [], _ + 1 => none
  | c :: rest, offset + 1 =>
      if c.utf8Size ≤ offset + 1 then dropBytes? rest (offset + 1 - c.utf8Size) else none

/-- The text up to a byte offset, if a character starts there or the text ends there. -/
def takeBytes? : List Char → Nat → Option (List Char)
  | _, 0 => some []
  | [], _ + 1 => none
  | c :: rest, offset + 1 =>
      if c.utf8Size ≤ offset + 1 then
        (takeBytes? rest (offset + 1 - c.utf8Size)).map (c :: ·)
      else none

/-- The text between two byte offsets, if both are cuts and in order. -/
def slice? (text : List Char) (start stop : Nat) : Option (List Char) :=
  if stop < start then none
  else
    match dropBytes? text start with
    | none => none
    | some rest => takeBytes? rest (stop - start)

/-- The last cut at or before a byte offset; past the end, the end. -/
def floorBoundary : List Char → Nat → Nat
  | [], _ => 0
  | c :: rest, offset =>
      if c.utf8Size ≤ offset then c.utf8Size + floorBoundary rest (offset - c.utf8Size) else 0

/-! ### Cutting -/

@[simp] theorem byteLength_append (a b : List Char) :
    byteLength (a ++ b) = byteLength a + byteLength b := by
  induction a with
  | nil => simp [byteLength]
  | cons c a ih => simp [byteLength, ih, Nat.add_assoc]

theorem byteLength_ofList (text : List Char) :
    (String.ofList text).utf8ByteSize = byteLength text := by
  induction text with
  | nil => simp [byteLength]
  | cons c rest ih =>
      rw [show c :: rest = [c] ++ rest from rfl, String.ofList_append, String.utf8ByteSize_append,
        ih, byteLength_append, ← String.singleton_eq_ofList, String.utf8ByteSize_singleton]
      rfl

theorem byteLength_toList (text : String) : byteLength text.toList = text.utf8ByteSize := by
  rw [← byteLength_ofList, String.ofList_toList]

theorem dropBytes?_zero (text : List Char) : dropBytes? text 0 = some text := by
  cases text <;> rfl

theorem takeBytes?_zero (text : List Char) : takeBytes? text 0 = some [] := by
  cases text <;> rfl

theorem dropBytes?_cons (c : Char) (rest : List Char) (offset : Nat) :
    dropBytes? (c :: rest) (c.utf8Size + offset) = dropBytes? rest offset := by
  have positive := c.utf8Size_pos
  obtain ⟨n, hn⟩ : ∃ n, c.utf8Size + offset = n + 1 := ⟨c.utf8Size + offset - 1, by omega⟩
  rw [hn, dropBytes?, if_pos (by omega), ← hn, Nat.add_sub_cancel_left]

theorem takeBytes?_cons (c : Char) (rest : List Char) (offset : Nat) :
    takeBytes? (c :: rest) (c.utf8Size + offset) = (takeBytes? rest offset).map (c :: ·) := by
  have positive := c.utf8Size_pos
  obtain ⟨n, hn⟩ : ∃ n, c.utf8Size + offset = n + 1 := ⟨c.utf8Size + offset - 1, by omega⟩
  rw [hn, takeBytes?, if_pos (by omega), ← hn, Nat.add_sub_cancel_left]

theorem dropBytes?_byteLength_append (a b : List Char) :
    dropBytes? (a ++ b) (byteLength a) = some b := by
  induction a with
  | nil => exact dropBytes?_zero b
  | cons c a ih => rw [List.cons_append, byteLength, dropBytes?_cons, ih]

theorem takeBytes?_byteLength_append (a b : List Char) :
    takeBytes? (a ++ b) (byteLength a) = some a := by
  induction a with
  | nil => exact takeBytes?_zero b
  | cons c a ih => rw [List.cons_append, byteLength, takeBytes?_cons, ih]; rfl

theorem slice?_append_append (a b c : List Char) :
    slice? (a ++ (b ++ c)) (byteLength a) (byteLength a + byteLength b) = some b := by
  rw [slice?, if_neg (by omega), dropBytes?_byteLength_append, Nat.add_sub_cancel_left]
  exact takeBytes?_byteLength_append b c

theorem floorBoundary_le (text : List Char) (offset : Nat) :
    floorBoundary text offset ≤ offset := by
  induction text generalizing offset with
  | nil => exact Nat.zero_le _
  | cons c rest ih =>
    rw [floorBoundary]
    split
    · have := ih (offset - c.utf8Size); omega
    · exact Nat.zero_le _

end Text

end SyntaxForest
