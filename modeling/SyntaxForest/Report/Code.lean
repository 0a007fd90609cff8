/-
**Codes of diagnostics.**

Each diagnostic has a code, which tells in which phase the problem was found.  A code is read in
either case of its letter.

Main definitions:

* `Code`, `Code.text`, `Code.description` — the codes, as they are written and explained;
* `Code.ofText?` — the code that a text names;
* `Code.isParser`, `Code.isInternal` — the phases.
-/

set_option relaxedAutoImplicit false
set_option autoImplicit false

namespace SyntaxForest

inductive Code
  | parser
  | semantic
  | internal
  | tooMany
  deriving DecidableEq, Inhabited

namespace Code

def all : List Code := [parser, semantic, internal, tooMany]

def text : Code → String
  | parser => "E1001"
  | semantic => "E2001"
  | internal => "E9001"
  | tooMany => "E9002"

def description : Code → String
  | parser => "the parser could not make sense of the source"
  | semantic => "a semantic pass rejected this construct"
  | internal => "internal compiler error: the node tree is malformed"
  | tooMany => "too many errors"

/-- The problem was found by the parser. -/
def isParser : Code → Bool
  | parser => true
  | _ => false

/-- The problem lies in the compiler or in the number of problems. -/
def isInternal : Code → Bool
  | internal | tooMany => true
  | _ => false

/-- Two texts that differ at most in the case of ASCII letters. -/
def sameLetters (a b : String) : Bool :=
  a.toList.map Char.toLower = b.toList.map Char.toLower

def ofText? (text : String) : Option Code :=
  all.find? fun code => sameLetters code.text text

end Code

end SyntaxForest
