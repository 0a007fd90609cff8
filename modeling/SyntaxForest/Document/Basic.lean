/-
**Documents.**

A document is one source file with its forest: the root, the table of names, the errors of the
parser, the path and the text of the file, and the lexical context once it is known.

Main definitions:

* `Document` — one source file with its forest;
* `Document.directives?`, `Document.nameOf?`, `Document.text`, `Document.searchTag` — what can be
  read off it;
* `Document.setContext` — writing the lexical context;
* `Document.edit` — an edit of its forest;
* `Document.groupOverloads` — grouping its declarations by name;
* `Document.hasErrors` — the parser or a pass found an error.

Main results:

* `Document.groupOverloads_ok`, `Document.groupOverloads_error` — what grouping makes of the forest.
-/

import SyntaxForest.Forest.Edit
import SyntaxForest.Forest.Outline
import SyntaxForest.Forest.Regroup
import SyntaxForest.Forest.Walk

set_option relaxedAutoImplicit false
set_option autoImplicit false

namespace SyntaxForest

/-- One source file with its forest. -/
structure Document where
  forest : Forest
  root : NodeId
  names : NameTable
  parseErrors : List ParseError
  file : Option String
  source : String
  /-- The lexical context, once it is known. -/
  context : Option ContextId
  deriving Inhabited

namespace Document

/-- The top-level directives, if the root exists; none if it is not a document. -/
def directives? (d : Document) : Option (List NodeId) :=
  (d.forest.node? d.root).map fun node =>
    match node.shape with
    | .document directives => d.forest.list directives
    | _ => []

def nameOf? (d : Document) (id : NodeId) : Option String :=
  match d.forest.node? id with
  | none => none
  | some node =>
      match node.shape with
      | .nameIdentifier name => some (d.names.text name)
      | .typeReference name _ _ => some (d.names.text name)
      | _ => none

def text (d : Document) (id : NodeId) : Except Refusal String := d.forest.text d.names id

def searchTag (d : Document) (tag : Tag) : Except Fault (List NodeId) :=
  d.forest.searchTag d.root tag

def hasErrors (d : Document) : Bool := !d.parseErrors.isEmpty || 0 < d.forest.errorCount

/-- Writes the lexical context, once. -/
def setContext (context : ContextId) : EStateM Refusal Document Unit := fun d =>
  match Node.once d.context (some context) none d.root "document context" with
  | .error refusal => .error refusal d
  | .ok context => .ok () { d with context := context }

def edit (edit : Edit) : EStateM Refusal Document Edit.Answer := fun d =>
  match d with
  | ⟨forest, root, names, parseErrors, file, source, context⟩ =>
      match edit.run forest with
      | .ok answer forest =>
          .ok answer ⟨forest, root, names, parseErrors, file, source, context⟩
      | .error refusal forest =>
          .error refusal ⟨forest, root, names, parseErrors, file, source, context⟩

/-- **Groups the declarations by name**; the answer lists the new groups.  A request at fault
leaves the document as it was. -/
def groupOverloads : EStateM Failure Document (List NodeId) := fun d =>
  match Forest.regroupDocument d.root d.forest with
  | .ok groups forest => .ok groups { d with forest := forest }
  | .error (.refused refusal) forest => .error (.refused refusal) { d with forest := forest }
  | .error (.fault fault) _ => .error (.fault fault) d

theorem groupOverloads_ok {d e : Document} {groups : List NodeId}
    (h : groupOverloads d = .ok groups e) :
    ∃ forest, Forest.regroupDocument d.root d.forest = .ok groups forest
      ∧ e = { d with forest := forest } := by
  unfold groupOverloads at h
  split at h
  · next forest hr =>
      cases h
      exact ⟨forest, hr, rfl⟩
  · cases h
  · cases h

theorem groupOverloads_error {d e : Document} {failure : Failure}
    (h : groupOverloads d = .error failure e) :
    e = d ∨ ∃ refusal forest,
      Forest.regroupDocument d.root d.forest = .error (.refused refusal) forest
        ∧ e = { d with forest := forest } := by
  unfold groupOverloads at h
  split at h
  · cases h
  · next refusal forest hr =>
      cases h
      exact Or.inr ⟨refusal, forest, hr, rfl⟩
  · cases h
    exact Or.inl rfl

end Document

end SyntaxForest
