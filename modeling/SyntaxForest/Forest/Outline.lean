/-
**The outline of a tree.**

An outline shows a tree one node a line, each line indented by the depth of its node: the sort of
the node, the text of its contents if they have one, its type if it is known, and a mark if it is
not in the source.  A binary expression without an operator has no text, and a tree that holds one
has no outline.  The indentation is a field of blanks, and the width of a field is a 16-bit number:
a node that is more than 32767 steps below the root has no line, and the outline breaks off there.
The lines are laid out once a visit has found all of them.

Main definitions:

* `Text.maxWidth`, `Text.blanks` — the widest field, and a field of blanks;
* `Text.Line`, `Text.layOut` — indented lines, and their layout;
* `Forest.text` — the text of the contents of a node;
* `Node.line` — the line of a node;
* `Forest.outline` — the outline of a tree.

Main results:

* `Text.blanks_eq` — a field of so many blanks.
-/

import SyntaxForest.Forest.Visit
import SyntaxForest.Syntax.LiteralText

set_option relaxedAutoImplicit false
set_option autoImplicit false

namespace SyntaxForest

namespace Text

/-- The width of the widest field that a text can be laid out in. -/
def maxWidth : Nat := 65535

/-- A field of blanks; the halves of a wide one are alike. -/
def blanks (width : Nat) : String :=
  if width = 0 then ""
  else if width % 2 = 0 then blanks (width / 2) ++ blanks (width / 2)
  else blanks (width / 2) ++ blanks (width / 2) ++ " "

theorem blanks_eq (width : Nat) : blanks width = String.ofList (List.replicate width ' ') := by
  fun_induction blanks width with
  | case1 => rfl
  | case2 width _ even ih =>
      have halves : width / 2 + width / 2 = width := by omega
      rw [ih, ← String.ofList_append, List.replicate_append_replicate, halves]
  | case3 width _ odd ih =>
      have halves : width / 2 + width / 2 + 1 = width := by omega
      have last : " " = String.ofList [' '] := rfl
      rw [ih, last, ← String.ofList_append, ← String.ofList_append, List.replicate_append_replicate,
        ← List.replicate_succ', halves]

/-- A line that is not laid out yet. -/
structure Line where
  width : Nat
  content : String

def Line.render (line : Line) : String := blanks line.width ++ line.content ++ "\n"

/-- The text of lines one after the other. -/
def layOut (lines : Array Line) : String :=
  lines.foldl (fun text line => text ++ line.render) ""

end Text

/-- The text of the contents of a node: names and operators in quotes, literals as they are
written, nothing for a node that only has children. -/
def Node.text (names : NameTable) (id : NodeId) (n : Node) : Except Refusal String :=
  match n.shape with
  | .nameIdentifier name => .ok (Text.quoted (names.text name))
  | .typeReference name _ _ => .ok (Text.quoted (names.text name))
  | .overloads name _ => .ok (Text.quoted (names.text name))
  | .binary _ operator _ =>
      if operator.isEmpty then .error (.missingOperator id)
      else .ok (Text.quoted (names.text operator))
  | .unary operator _ => .ok (Text.quoted (names.text operator))
  | .literal value => .ok value.render
  | _ => .ok ""

/-- The line of a node at a depth, its text given. -/
def Node.line (n : Node) (depth : Nat) (text : String) : Text.Line where
  width := 2 * depth
  content := n.shape.tag.name
    ++ (if text.isEmpty then "" else " " ++ text)
    ++ (if n.type.isResolved then " : " ++ n.type.describe else "")
    ++ (if n.isDerived then " [injected]" else "")

namespace Forest

/-- **The text of the contents of a node.** -/
def text (f : Forest) (names : NameTable) (id : NodeId) : Except Refusal String :=
  match f.require id with
  | .error refusal => .error refusal
  | .ok node => node.text names id

/-- Adds the line of a node and goes on.  A node without a text is refused before the width of its
line is looked at. -/
def addLine (f : Forest) (names : NameTable) (depth : Nat) (id : NodeId)
    (lines : Array Text.Line) : Except Failure (Move (Array Text.Line)) :=
  match f.require id with
  | .error refusal => .error (.refused refusal)
  | .ok node =>
      match node.text names id with
      | .error refusal => .error (.refused refusal)
      | .ok text =>
          if Text.maxWidth < (node.line depth text).width then .error (.fault .tooWide)
          else .ok (.into (lines.push (node.line depth text)))

/-- **The outline of a node and of what is under it.** -/
def outline (f : Forest) (names : NameTable) (root : NodeId) : Except Failure String :=
  (f.visit (f.addLine names) root #[]).map Text.layOut

end Forest

end SyntaxForest
