/-
**Lines and columns.**

A reader is told a line and a column, both counted from one; a column counts characters.  An
offset past the end of the source is taken as its end, and one inside a character as the start of
that character.

Main definitions:

* `Position` — a line and a column;
* `Source.column` — the column of an offset on the line that starts at another;
* `Position.scan` — the position of an offset, by reading the source from its start.
-/

import SyntaxForest.Source.Span

set_option relaxedAutoImplicit false
set_option autoImplicit false

namespace SyntaxForest

/-- A line and a column, both from one. -/
structure Position where
  line : Nat
  /-- The column, in characters. -/
  column : Nat
  deriving DecidableEq, Inhabited

namespace Source

/-- The column of an offset on the line that starts at `lineStart`: the characters that end at or
before the offset, plus one. -/
def column (source : List Char) (lineStart offset : Nat) : Nat :=
  match Text.slice? source lineStart (Text.floorBoundary source offset) with
  | none => 1
  | some line => line.length + 1

/-- The newlines that start before `offset`, and the start of the line after the last of them,
for the rest of a source from the offset `place` on, on a line that starts at `lineStart`. -/
def lineBefore (offset : Nat) : List Char → (place newlines lineStart : Nat) → Nat × Nat
  | [], _, newlines, lineStart => (newlines, lineStart)
  | c :: rest, place, newlines, lineStart =>
      if place < offset then
        if c = '\n' then lineBefore offset rest (place + 1) (newlines + 1) (place + 1)
        else lineBefore offset rest (place + c.utf8Size) newlines lineStart
      else (newlines, lineStart)

end Source

/-- The position of an offset, by reading the source from its start. -/
def Position.scan (source : List Char) (offset : Nat) : Position :=
  let (newlines, lineStart) := Source.lineBefore offset source 0 0 0
  ⟨newlines + 1, Source.column source lineStart offset⟩

end SyntaxForest
