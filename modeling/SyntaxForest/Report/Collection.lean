/-
**The diagnostics of a document.**

The errors of the parser come first, in its order; then the errors in the nodes of the tree, in
the order of a visit; then the errors in nodes that the tree does not reach, in the order in which
the nodes were made.

Main definitions:

* `Document.collect` — the diagnostics of a document;
* `Document.report` — the same, passed through a queue.
-/

import SyntaxForest.Document.Basic
import SyntaxForest.Forest.Visit
import SyntaxForest.Report.Queue

set_option relaxedAutoImplicit false
set_option autoImplicit false

namespace SyntaxForest

/-- The diagnostics of the errors in a node. -/
def Node.diagnostics (n : Node) : List Diagnostic := n.errors.map (Diagnostic.ofNodeError n)

/-- The diagnostics of the errors in the node of a number, none for a number without a node. -/
def Forest.diagnostics (f : Forest) (id : NodeId) : List Diagnostic :=
  match f.node? id with
  | none => []
  | some node => node.diagnostics

namespace Document

/-- What has been found on the way through a tree. -/
structure Gathered where
  found : Array Diagnostic
  /-- Whether each node has been met. -/
  reached : Array Bool
  deriving Inhabited

/-- Notes that a node has been met, and the errors in it. -/
def gather (f : Forest) (_ : Nat) (id : NodeId) (g : Gathered) :
    Except Failure (Move Gathered) :=
  match g with
  | ⟨found, reached⟩ =>
      .ok (.into ⟨found ++ f.diagnostics id, reached.setIfInBounds id.raw true⟩)

/-- The diagnostics of the nodes that have not been met. -/
def unreached (f : Forest) (reached : Array Bool) : List Diagnostic :=
  (f.ids.filter fun id => !reached.getD id.raw false).flatMap f.diagnostics

/-- **The diagnostics of a document.** -/
def collect (d : Document) : Except Failure (List Diagnostic) :=
  let start : Gathered := ⟨#[], Array.replicate d.forest.size false⟩
  match d.forest.visit (gather d.forest) d.root start with
  | .error failure => .error failure
  | .ok ⟨found, reached⟩ =>
      .ok (d.parseErrors.map Diagnostic.ofParseError ++ found.toList
        ++ unreached d.forest reached)

/-- A queue after diagnostics have been offered to it, each at its position in a source. -/
def enqueue (source : String) (table : LineTable) (q : Queue) (ds : List Diagnostic) : Queue :=
  ds.foldl (fun q d => (q.addWithTable d source table).2) q

/-- **The diagnostics of a document as a queue gives them out.** -/
def report (d : Document) (config : Queue.Config) : Except Failure (List Diagnostic) :=
  match d.collect with
  | .error failure => .error failure
  | .ok ds =>
      let table := LineTable.ofSource d.source.toList
      .ok (enqueue d.source table (Queue.new config) ds).flush.1

end Document

end SyntaxForest
