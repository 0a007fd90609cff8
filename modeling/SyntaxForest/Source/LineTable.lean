/-
**Tables of line starts.**

Looking up many positions of one source by reading it from the start each time is wasteful; a line
table holds the offset at which each line starts, and a line is found in it by halving.

Main definitions:

* `LineTable`, `LineTable.ofSource` — the starts of the lines of a source;
* `LineTable.lineOf` — the line of an offset;
* `LineTable.start?` — the start of a line;
* `LineTable.position` — the position of an offset.
-/

import SyntaxForest.Source.Position

set_option relaxedAutoImplicit false
set_option autoImplicit false

namespace SyntaxForest

/-- The offsets at which the lines of a source start, in increasing order. -/
structure LineTable where
  /-- The start of each line; the first is zero in the table of a source. -/
  starts : Array Nat
  deriving Inhabited

namespace LineTable

/-- The offsets after the newlines of a text that starts at the offset `place`. -/
def startsAfter : List Char → (place : Nat) → List Nat
  | [], _ => []
  | c :: rest, place =>
      if c = '\n' then
        if place + 1 ≤ maxWord then (place + 1) :: startsAfter rest (place + 1) else []
      else startsAfter rest (place + c.utf8Size)

def ofSource (source : List Char) : LineTable :=
  ⟨(0 :: startsAfter source 0).toArray⟩

def empty : LineTable := ⟨#[]⟩

def size (t : LineTable) : Nat := t.starts.size

/-- The least index from `low` to `high` whose entry is greater than `offset`, or `high`. -/
def bisect (starts : Array Nat) (offset low high : Nat) : Nat :=
  if low < high then
    let middle := (low + high) / 2
    if starts.getD middle 0 ≤ offset then bisect starts offset (middle + 1) high
    else bisect starts offset low middle
  else low
termination_by high - low
decreasing_by all_goals omega

/-- The line that holds an offset. -/
def lineOf (t : LineTable) (offset : Nat) : Nat :=
  max 1 (bisect t.starts offset 0 t.starts.size)

/-- The offset at which a line starts. -/
def start? (t : LineTable) : (line : Nat) → Option Nat
  | 0 => none
  | line + 1 => t.starts[line]?

def position (t : LineTable) (source : List Char) (offset : Nat) : Position :=
  let line := t.lineOf offset
  ⟨line, Source.column source ((t.start? line).getD 0) offset⟩

end LineTable

end SyntaxForest
