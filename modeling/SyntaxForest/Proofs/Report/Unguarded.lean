/-
**Reports without guards.**

Lines and columns are words, and they count from one, so something is added to each of them at the
very end: a number that is no word is cut off before, but a number that is the last word is not.  In
a source as long as there are words this is the difference between an answer and none.  A shorter
source has fewer lines and columns than it has bytes, and all its places can be told.

Main definitions:

* `Stop.increment` — the number after a number, among words;
* `LineTable.Unguarded.position` — the position of an offset in words;
* `Document.Unguarded.report` — the diagnostics of a document, placed by such positions.

Main results:

* `LineTable.Unguarded.position_eq` — the places of a short source can be told;
* `Document.Unguarded.report_eq` — **the report on a short source is not cut short.**
-/

import SyntaxForest.Proofs.Forest.Unguarded
import SyntaxForest.Proofs.Source.Positions
import SyntaxForest.Report.Collection

set_option relaxedAutoImplicit false
set_option autoImplicit false

namespace SyntaxForest

/-- The number after a number.  A number that is no word is taken for the last but one, so that
there is a word after it; after the last word there is none. -/
def Stop.increment (n : Nat) : Except Stop Nat :=
  if n < maxWord then .ok (n + 1)
  else if n = maxWord then .error .overflow
  else .ok maxWord

open Text

/-! ### Bounds -/

theorem Text.length_le_byteLength (text : List Char) : text.length ≤ byteLength text := by
  induction text with
  | nil => exact Nat.zero_le _
  | cons c rest ih =>
      rw [List.length_cons, byteLength, Nat.add_comm]
      exact Nat.add_le_add c.utf8Size_pos ih

theorem Position.after_le (text : List Char) : (Position.after text).line ≤ text.length + 1
    ∧ (Position.after text).column ≤ text.length + 1 := by
  have columns := (List.takeWhile_sublist (· ≠ '\n') (l := text.reverse)).length_le
  rw [List.length_reverse] at columns
  exact ⟨Nat.succ_le_succ List.count_le_length, Nat.succ_le_succ columns⟩

/-- What is before an offset is no longer than the text. -/
theorem Text.length_before_le (text : List Char) (offset : Nat) :
    (before text offset).length ≤ byteLength text := by
  obtain ⟨rest, htext, -⟩ := exists_before_append text offset
  have hlength := length_le_byteLength text
  have happend := congrArg List.length htext
  rw [List.length_append] at happend
  omega

namespace LineTable

namespace Unguarded

variable {source : List Char}

def lineOf (t : LineTable) (offset : Nat) : Except Stop Nat :=
  Stop.increment (bisect t.starts offset 0 t.starts.size - 1)

def column (source : List Char) (lineStart offset : Nat) : Except Stop Nat :=
  Stop.increment
    (((slice? source lineStart (floorBoundary source offset)).map List.length).getD 0)

def position (t : LineTable) (source : List Char) (offset : Nat) : Except Stop Position := do
  let line ← lineOf t offset
  let column ← column source ((t.start? line).getD 0) offset
  return ⟨line, column⟩

theorem lineOf_eq {t : LineTable} {offset : Nat} (few : t.lineOf offset ≤ maxWord) :
    lineOf t offset = .ok (t.lineOf offset) := by
  have hline : t.lineOf offset = bisect t.starts offset 0 t.starts.size - 1 + 1 := by
    rw [LineTable.lineOf]
    omega
  rw [lineOf, Stop.increment, if_pos (by omega), hline]

theorem column_eq {lineStart offset : Nat}
    (few : Source.column source lineStart offset ≤ maxWord) :
    column source lineStart offset = .ok (Source.column source lineStart offset) := by
  rw [column]
  unfold Source.column at few ⊢
  cases hline : slice? source lineStart (floorBoundary source offset) with
  | none => rfl
  | some line =>
      rw [hline] at few
      exact if_pos few

/-- **The places of a short source can be told.** -/
theorem position_eq (short : byteLength source < maxWord) (offset : Nat) :
    position (ofSource source) source offset = .ok ((ofSource source).position source offset) := by
  have before_le := length_before_le source offset
  obtain ⟨lines, columns⟩ := Position.after_le (before source offset)
  rw [← position_ofSource (Nat.le_of_lt short) offset] at lines columns
  rw [position, lineOf_eq (Nat.le_trans lines (by omega))]
  change (column source _ offset >>= fun column => pure _) = _
  rw [column_eq (Nat.le_trans columns (by omega))]
  rfl

end Unguarded

end LineTable

namespace Document

namespace Unguarded

def positionInTable (source : String) (table : LineTable) (d : Diagnostic) :
    Except Stop Position :=
  match d.primarySpan? with
  | none => .ok ⟨1, 1⟩
  | some span => LineTable.Unguarded.position table source.toList span.start

/-- A queue after diagnostics have been offered to it, each at its position in a source. -/
def enqueue (source : String) (table : LineTable) (q : Queue) (ds : List Diagnostic) :
    Except Stop Queue :=
  ds.foldlM
    (fun q d => do
      let position ← positionInTable source table d
      return (q.add d position).2)
    q

/-- The diagnostics of a document as a queue gives them out. -/
def report (d : Document) (config : Queue.Config) : Except Stop (List Diagnostic) := do
  let ds ← d.collect.mapError Stop.ofFailure
  let q ← enqueue d.source (LineTable.ofSource d.source.toList) (Queue.new config) ds
  return q.flush.1

theorem positionInTable_eq {source : String} (short : source.utf8ByteSize < maxWord)
    (d : Diagnostic) : positionInTable source (LineTable.ofSource source.toList) d
      = .ok (Queue.positionInTable source (LineTable.ofSource source.toList) d) := by
  rw [positionInTable, Queue.positionInTable]
  cases d.primarySpan? with
  | none => rfl
  | some span =>
      exact LineTable.Unguarded.position_eq (byteLength_toList source ▸ short) span.start

theorem enqueue_eq {source : String} (short : source.utf8ByteSize < maxWord) (q : Queue)
    (ds : List Diagnostic) : enqueue source (LineTable.ofSource source.toList) q ds
      = .ok (Document.enqueue source (LineTable.ofSource source.toList) q ds) := by
  induction ds generalizing q with
  | nil => rfl
  | cons d rest ih =>
      rw [enqueue, List.foldlM_cons, positionInTable_eq short]
      exact ih _

/-- **The report on a short source is not cut short.** -/
theorem report_eq {d : Document} (short : d.source.utf8ByteSize < maxWord)
    (config : Queue.Config) :
    report d config = (d.report config).mapError Stop.ofFailure := by
  rw [report, Document.report]
  cases d.collect with
  | error failure => rfl
  | ok ds =>
      change (enqueue d.source _ (Queue.new config) ds >>= fun q => pure q.flush.1) = _
      rw [enqueue_eq short]
      rfl

end Unguarded

end Document

end SyntaxForest
