/-
**Quoted text.**

A name, an operator or the text of a refused literal is shown between double quotes.  Inside the
quotes the double quote and the backslash follow a backslash, four control characters have an
escape letter, and every other character that would not be seen on its own (see
`Text.isUnprintable`, `Text.isIgnorable` and `Text.extendsGrapheme`) is given by its code point in
hexadecimal.  The written form therefore stays on one line, whatever the text holds.

Main definitions:

* `Text.escape` — how one character is written inside quotes;
* `Text.quote`, `Text.quoted` — a text between quotes, as characters and as a string.
-/

import SyntaxForest.Text.Unprintable

set_option relaxedAutoImplicit false
set_option autoImplicit false

namespace SyntaxForest

namespace Text

/-- The code point of a character, in lower-case hexadecimal between braces. -/
def codeEscape (c : Char) : List Char :=
  ['\\', 'u', '\x7b'] ++ Nat.toDigits 16 c.toNat ++ ['\x7d']

/-- A character that is spelled by its code point. -/
def isHidden (c : Char) : Bool :=
  extendsGrapheme c || isIgnorable c || isUnprintable c

/-- The written form of a character inside double quotes. -/
def escape (c : Char) : List Char :=
  if c = '\x00' then ['\\', '0']
  else if c = '\t' then ['\\', 't']
  else if c = '\r' then ['\\', 'r']
  else if c = '\n' then ['\\', 'n']
  else if c = '\"' then ['\\', '\"']
  else if c = '\\' then ['\\', '\\']
  else if isHidden c then codeEscape c
  else [c]

/-- A text between double quotes. -/
def quote (text : List Char) : List Char :=
  '\"' :: (text.flatMap escape ++ ['\"'])

/-- A string between double quotes. -/
def quoted (text : String) : String :=
  String.ofList (quote text.toList)

end Text

end SyntaxForest
