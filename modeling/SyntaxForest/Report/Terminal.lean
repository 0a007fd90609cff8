/-
**Diagnostics on a terminal.**

A diagnostic is shown as a heading, a line for each label, and a line for each note and each
suggestion.  With the source at hand a label is placed by path, line and column, without it by
byte offsets.  A text is made of pieces, some of which have a colour; a terminal without colours
shows the same pieces without the colour codes.

Main definitions:

* `Colour`, `Piece`, `Piece.render` — coloured text;
* `ColourMode`, `Terminal` — whether colours are used, and the source at hand;
* `Terminal.diagnostic`, `Terminal.diagnostics`, `Terminal.summary` — the pieces of a diagnostic,
  of several with their summary, and of a summary;
* `Terminal.emit`, `Terminal.emitAll`, `Terminal.emitSummary` — the texts of these.

Main results:

* `Piece.renderAll_append`, `Piece.renderAll_flatMap` — pieces are shown one after another;
* `Terminal.emitAll_eq` — and so are diagnostics, before they are counted.
-/

import SyntaxForest.Report.Queue

set_option relaxedAutoImplicit false
set_option autoImplicit false

namespace SyntaxForest

/-! ### Coloured text -/

inductive Colour
  | red
  | yellow
  | green
  | blue
  | bold
  deriving DecidableEq, Inhabited

def Colour.code : Colour → String
  | red => "\x1b[1;31m"
  | yellow => "\x1b[1;33m"
  | green => "\x1b[1;32m"
  | blue => "\x1b[1;34m"
  | bold => "\x1b[1m"

def Colour.reset : String := "\x1b[0m"

inductive Piece
  | plain (text : String)
  | coloured (colour : Colour) (text : String)
  deriving DecidableEq

namespace Piece

/-- A piece of text, with its colour code or without. -/
def render (colours : Bool) : Piece → String
  | plain text => text
  | coloured colour text => if colours then colour.code ++ text ++ Colour.reset else text

def renderAll (colours : Bool) (pieces : List Piece) : String :=
  String.join (pieces.map (render colours))

end Piece

/-- When colours are used. -/
inductive ColourMode
  | auto
  | always
  | never
  deriving DecidableEq, Inhabited

/-- Colours are used. -/
def ColourMode.usesColours (mode : ColourMode) (isTerminal : Bool) : Bool :=
  match mode with
  | auto => isTerminal
  | always => true
  | never => false

/-! ### Terminals -/

/-- A source that labels are placed in. -/
structure Terminal.Source where
  path : String
  text : String
  lines : LineTable
  deriving Inhabited

/-- A place where diagnostics are shown. -/
structure Terminal where
  colours : Bool
  source : Option Terminal.Source
  deriving Inhabited

namespace Terminal

def new (mode : ColourMode) (isTerminal : Bool) : Terminal :=
  ⟨mode.usesColours isTerminal, none⟩

def withSource (path text : String) (t : Terminal) : Terminal :=
  { t with source := some ⟨path, text, LineTable.ofSource text.toList⟩ }

def location (t : Terminal) (span : Span) : String :=
  match t.source with
  | none => span.text
  | some source =>
      let position := source.lines.position source.text.toList span.start
      s!"{source.path}:{position.line}:{position.column}"

def severityColour : Severity → Colour
  | .error => .red
  | .warning => .yellow

/-- The line of a label. -/
def label (t : Terminal) (label : Label) : List Piece :=
  [.plain ("  " ++ Diagnostic.marker label.isPrimary ++ " " ++ t.location label.span ++ ": "),
    .coloured (if label.isPrimary then .red else .blue) label.message,
    .plain "\n"]

def trailer (kind : String) (colour : Colour) (text : String) : List Piece :=
  [.plain "  = ", .coloured colour kind, .plain (": " ++ text ++ "\n")]

/-- A diagnostic, with an empty line after it. -/
def diagnostic (t : Terminal) (d : Diagnostic) : List Piece :=
  [.coloured (severityColour d.severity) d.severity.text,
    .coloured .bold ("[" ++ d.code.text ++ "]"),
    .plain (": " ++ d.message ++ "\n")]
    ++ d.labels.flatMap t.label
    ++ d.notes.flatMap (trailer "note" .bold)
    ++ d.suggestions.flatMap (trailer "help" .green)
    ++ [.plain "\n"]

def warningCount (warnings : Nat) : String :=
  s!"{warnings} warning" ++ (if warnings = 1 then "" else "s") ++ " emitted"

def errorCount (errors : Nat) : String :=
  if errors = 1 then "previous error" else s!"{errors} previous errors"

/-- What was shown, in numbers; nothing if nothing was shown. -/
def summary (errors warnings : Nat) : List Piece :=
  if 0 < errors then
    [.coloured .red "error",
      .plain (": aborting due to " ++ errorCount errors
        ++ (if 0 < warnings then "; " ++ warningCount warnings else "") ++ "\n")]
  else if 0 < warnings then
    [.coloured .yellow "warning", .plain (": " ++ warningCount warnings ++ "\n")]
  else []

def diagnostics (t : Terminal) (ds : List Diagnostic) : List Piece :=
  ds.flatMap t.diagnostic
    ++ summary (ds.countP fun d => d.severity = .error) (ds.countP fun d => d.severity = .warning)

def emit (t : Terminal) (d : Diagnostic) : String := Piece.renderAll t.colours (t.diagnostic d)

def emitAll (t : Terminal) (ds : List Diagnostic) : String :=
  Piece.renderAll t.colours (t.diagnostics ds)

def emitSummary (t : Terminal) (errors warnings : Nat) : String :=
  Piece.renderAll t.colours (summary errors warnings)

end Terminal

/-! ### Pieces one after another -/

@[simp] theorem Piece.render_plain (colours : Bool) (text : String) :
    (plain text).render colours = text := rfl

theorem Piece.renderAll_append (colours : Bool) (a b : List Piece) :
    renderAll colours (a ++ b) = renderAll colours a ++ renderAll colours b := by
  simp [renderAll, String.join_append]

theorem Piece.renderAll_flatMap {α : Type} (colours : Bool) (pieces : α → List Piece)
    (xs : List α) : renderAll colours (xs.flatMap pieces)
      = String.join (xs.map fun x => renderAll colours (pieces x)) := by
  induction xs with
  | nil => rfl
  | cons x rest ih =>
      rw [List.flatMap_cons, renderAll_append, ih, List.map_cons, String.join_cons]

/-- Diagnostics are shown one after another, and then they are counted. -/
theorem Terminal.emitAll_eq (t : Terminal) (ds : List Diagnostic) : t.emitAll ds
    = String.join (ds.map t.emit)
      ++ t.emitSummary (ds.countP fun d => d.severity = .error)
        (ds.countP fun d => d.severity = .warning) := by
  rw [emitAll, diagnostics, Piece.renderAll_append, Piece.renderAll_flatMap]
  rfl

end SyntaxForest
