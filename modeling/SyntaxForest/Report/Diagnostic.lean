/-
**Diagnostics.**

A diagnostic tells a reader about one problem: how severe it is, what it is, where it is, and what
else helps.  It has at most one primary label, which stands first and says where the problem is;
a later primary label takes the place of an earlier one.

Main definitions:

* `Diagnostic`, `Label`, `Severity` — the data;
* `Diagnostic.Part`, `Diagnostic.with`, `Diagnostic.build` — putting a diagnostic together;
* `Diagnostic.ofParseError`, `Diagnostic.ofNodeError`, `Diagnostic.ofRefusal` — the diagnostic of
  an error of the parser, of an error in a node, and of a broken rule;
* `Diagnostic.primarySpan?` — where the problem is;
* `Diagnostic.text` — a diagnostic in plain text.

Main results:

* `Diagnostic.primarySpan?_withLabel` — a primary label says where the problem is.
-/

import SyntaxForest.Forest.Basic
import SyntaxForest.Report.Code

set_option relaxedAutoImplicit false
set_option autoImplicit false

namespace SyntaxForest

inductive Severity
  | error
  | warning
  deriving DecidableEq, Inhabited

def Severity.text : Severity → String
  | error => "error"
  | warning => "warning"

/-- A place in the source with an explanation. -/
structure Label where
  span : Span
  message : String
  /-- Whether the problem itself is there. -/
  isPrimary : Bool
  deriving DecidableEq, Inhabited

/-- A problem to be told. -/
structure Diagnostic where
  code : Code
  severity : Severity
  message : String
  labels : List Label
  notes : List String
  suggestions : List String
  deriving DecidableEq, Inhabited

namespace Diagnostic

/-- A diagnostic without a message. -/
def blank (severity : Severity) (code : Code) : Diagnostic where
  code := code
  severity := severity
  message := ""
  labels := []
  notes := []
  suggestions := []

def withMessage (message : String) (d : Diagnostic) : Diagnostic := { d with message := message }

/-- A primary label, in place of an earlier one. -/
def withLabel (span : Span) (message : String) (d : Diagnostic) : Diagnostic :=
  { d with labels := ⟨span, message, true⟩ :: d.labels.filter (!·.isPrimary) }

def withSecondaryLabel (span : Span) (message : String) (d : Diagnostic) : Diagnostic :=
  { d with labels := d.labels ++ [⟨span, message, false⟩] }

def withNote (note : String) (d : Diagnostic) : Diagnostic := { d with notes := d.notes ++ [note] }

def withSuggestion (suggestion : String) (d : Diagnostic) : Diagnostic :=
  { d with suggestions := d.suggestions ++ [suggestion] }

inductive Part
  | message (text : String)
  | label (span : Span) (message : String)
  | secondaryLabel (span : Span) (message : String)
  | note (text : String)
  | suggestion (text : String)
  deriving DecidableEq

def add (d : Diagnostic) : Part → Diagnostic
  | .message text => d.withMessage text
  | .label span message => d.withLabel span message
  | .secondaryLabel span message => d.withSecondaryLabel span message
  | .note text => d.withNote text
  | .suggestion text => d.withSuggestion text

/-- A diagnostic put together from parts, in their order. -/
def build (severity : Severity) (code : Code) (parts : List Part) : Diagnostic :=
  parts.foldl add (blank severity code)

/-! ### Sources of diagnostics -/

def ofParseError (error : ParseError) : Diagnostic :=
  ((blank .error .parser).withMessage error.message).withLabel error.span "syntax error here"

/-- The diagnostic of an error in a node.  A node that is not in the source has the span of the
node it was derived from, and the diagnostic says so. -/
def ofNodeError (node : Node) (error : NodeError) : Diagnostic where
  code := .semantic
  severity := .error
  message := error.message
  labels := [⟨node.span, node.shape.tag.name, true⟩]
  notes := error.note.toList
    ++ (if node.isDerived then ["in compiler-generated code derived from this location"] else [])
  suggestions := []

def ofRefusal (refusal : Refusal) (span : Span) : Diagnostic :=
  (((blank .error .internal).withMessage ("internal compiler error: " ++ refusal.message)).withLabel
    span "while processing this").withNote "this is a bug in the compiler, please report it"

/-! ### Reading a diagnostic -/

/-- Where the problem is. -/
def primarySpan? (d : Diagnostic) : Option Span :=
  (d.labels.find? (·.isPrimary)).map (·.span)

/-- A diagnostic of an error, not of a warning. -/
def isError (d : Diagnostic) : Bool := d.severity = .error

/-- The mark in front of a label. -/
def marker (isPrimary : Bool) : String := if isPrimary then "-->" else "   "

def labelLine (label : Label) : String :=
  "\n  " ++ marker label.isPrimary ++ " " ++ label.span.text ++ ": " ++ label.message

def trailerLine (kind text : String) : String := "\n  = " ++ kind ++ ": " ++ text

def text (d : Diagnostic) : String :=
  d.severity.text ++ " [" ++ d.code.text ++ "]: " ++ d.message
    ++ String.join (d.labels.map labelLine)
    ++ String.join (d.notes.map (trailerLine "note"))
    ++ String.join (d.suggestions.map (trailerLine "help"))

theorem primarySpan?_withLabel (span : Span) (message : String) (d : Diagnostic) :
    (d.withLabel span message).primarySpan? = some span := rfl

end Diagnostic

end SyntaxForest
