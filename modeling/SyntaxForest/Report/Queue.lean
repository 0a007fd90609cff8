/-
**Queues of diagnostics.**

Diagnostics are queued with their positions and given out in the order of these, those at one
position in the order in which they came.  A queue may take only a number of errors; it turns
further errors away, and says so at the end.  It may also turn away an error that repeats a queued
diagnostic: one with the same line, code and message.  Whether a queue is full is asked before
whether an error repeats another, and warnings are always taken.

Main definitions:

* `Queue.Config`, `Queue.Entry`, `Queue` — the settings, a queued diagnostic, a queue;
* `Queue.add`, `Queue.addWithSource`, `Queue.addWithTable` — offering a diagnostic;
* `Queue.flush` — giving out what is queued.
-/

import SyntaxForest.Report.Diagnostic
import SyntaxForest.Source.LineTable

set_option relaxedAutoImplicit false
set_option autoImplicit false

namespace SyntaxForest

structure Queue.Config where
  /-- How many errors are taken; zero means all. -/
  errorLimit : Nat
  /-- Whether errors that repeat a queued diagnostic are turned away. -/
  deduplicate : Bool
  sort : Bool
  deriving DecidableEq, Inhabited

/-- Ten errors are taken, repeated ones too, and given out in order. -/
def Queue.Config.standard : Queue.Config := ⟨10, false, true⟩

/-- All errors are taken and given out in order. -/
def Queue.Config.unlimited : Queue.Config := ⟨0, false, true⟩

structure Queue.Entry where
  diagnostic : Diagnostic
  position : Position
  deriving DecidableEq, Inhabited

/-- Diagnostics that wait to be given out. -/
structure Queue where
  config : Queue.Config
  /-- The queued diagnostics, in the order in which they came. -/
  entries : Array Queue.Entry
  errorCount : Nat
  /-- An error was turned away because there were too many. -/
  overflowed : Bool
  deriving Inhabited

/-- The order of positions: by line, then by column. -/
def Position.le (a b : Position) : Bool :=
  a.line < b.line || (a.line = b.line && a.column ≤ b.column)

/-- The diagnostic that stands for the errors that were turned away. -/
def Diagnostic.tooMany (limit : Nat) (span : Span) : Diagnostic :=
  (((Diagnostic.blank .error .tooMany).withMessage s!"aborting after {limit} errors").withLabel
    span "error limit reached here").withNote "raise `DiagnosticConfig::error_limit` to see more"

namespace Queue

def new (config : Config) : Queue := ⟨config, #[], 0, false⟩

/-- No further error is taken. -/
def limitReached (q : Queue) : Bool :=
  0 < q.config.errorLimit && q.config.errorLimit ≤ q.errorCount

/-- An error that has the line, code and message of a queued diagnostic. -/
def repeats (q : Queue) (d : Diagnostic) (line : Nat) : Bool :=
  d.isError && q.entries.any fun entry =>
    entry.position.line = line && entry.diagnostic.code = d.code
      && entry.diagnostic.message = d.message

/-- Offers a diagnostic; the answer is whether it is taken. -/
def add (q : Queue) (d : Diagnostic) (position : Position) : Bool × Queue :=
  if d.isError && q.limitReached then (false, { q with overflowed := true })
  else if q.config.deduplicate && q.repeats d position.line then (false, q)
  else
    (true, { q with
      entries := q.entries.push ⟨d, position⟩
      errorCount := if d.isError then q.errorCount + 1 else q.errorCount })

def positionInSource (source : String) (d : Diagnostic) : Position :=
  match d.primarySpan? with
  | none => ⟨1, 1⟩
  | some span => Position.scan source.toList span.start

def positionInTable (source : String) (table : LineTable) (d : Diagnostic) : Position :=
  match d.primarySpan? with
  | none => ⟨1, 1⟩
  | some span => table.position source.toList span.start

def addWithSource (q : Queue) (d : Diagnostic) (source : String) : Bool × Queue :=
  q.add d (positionInSource source d)

/-- Offers a diagnostic at its position in a source with a table. -/
def addWithTable (q : Queue) (d : Diagnostic) (source : String) (table : LineTable) :
    Bool × Queue :=
  q.add d (positionInTable source table d)

def diagnostics (q : Queue) : List Diagnostic := q.entries.toList.map (·.diagnostic)

/-- The queued diagnostics, in the order in which they are given out. -/
def ordered (q : Queue) : List Diagnostic :=
  if q.config.sort then
    (q.entries.toList.mergeSort fun a b => a.position.le b.position).map (·.diagnostic)
  else q.diagnostics

/-- Gives out what is queued and starts anew.  If errors were turned away, a last diagnostic says
so, at the place of the one before it. -/
def flush (q : Queue) : List Diagnostic × Queue :=
  let given := q.ordered
  -- The errors turned away have no place of their own, so the last one given out lends its place.
  let span := (given.getLast?.bind Diagnostic.primarySpan?).getD Span.none
  let last := if q.overflowed then [Diagnostic.tooMany q.config.errorLimit span] else []
  (given ++ last, new q.config)

end Queue

end SyntaxForest
