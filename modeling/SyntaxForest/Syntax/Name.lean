/-
**Names.**

The nodes of a forest do not hold text: an identifier or an operator is a number into a table of
the distinct texts seen so far.  The table starts with the empty text, which also stands for an
operator that is not set, and with the keywords, the primitive types and the operators of the
language.

Main definitions:

* `Name`, `Name.empty` — the number of a text;
* `NameTable`, `NameTable.fresh` — the texts numbered so far;
* `NameTable.find?`, `NameTable.intern`, `NameTable.intern?` — the number of a text, looked up or
  given out;
* `NameTable.text` — the text of a number.

Main results:

* `NameTable.text_of_find?` — a number found for a text has that text;
* `NameTable.text_intern` — so has the number given out;
* `NameTable.text_intern_of_lt` — giving out a number changes no text.
-/

set_option relaxedAutoImplicit false
set_option autoImplicit false

namespace SyntaxForest

/-- The number of a text in a table. -/
structure Name where
  raw : Nat
  deriving DecidableEq, Inhabited

namespace Name

def empty : Name := ⟨0⟩

/-- A name of no text, which also says that nothing is named yet. -/
def isEmpty (n : Name) : Bool := n.raw = 0

def describe (n : Name) : String := s!"Name({n.raw})"

end Name

/-- The texts numbered so far; a text stands at its number. -/
structure NameTable where
  /-- The texts, in the order in which they were first seen. -/
  texts : Array String
  deriving Inhabited

namespace NameTable

/-- The texts that every table holds from the start. -/
def common : List String :=
  ["",
    "fun", "var", "val", "const", "type", "match", "case", "else", "true", "false", "null",
    "export",
    "int", "float", "boolean", "void", "f32", "f64", "i32", "i64",
    "+", "-", "*", "/", "%", "==", "!=", "<", ">", "<=", ">=", "&&", "||", "!"]

/-- The table before any text is seen. -/
def fresh : NameTable := ⟨common.toArray⟩

def size (t : NameTable) : Nat := t.texts.size

/-- A table with no text but the empty one. -/
def isEmpty (t : NameTable) : Bool := t.size ≤ 1

/-- The number of a text, if it has one. -/
def find? (t : NameTable) (text : String) : Option Name :=
  (t.texts.findIdx? (· == text)).map Name.mk

def intern (t : NameTable) (text : String) : Name × NameTable :=
  match t.find? text with
  | some name => (name, t)
  | none => (⟨t.texts.size⟩, ⟨t.texts.push text⟩)

/-- The number of texts that a 32-bit number can tell apart. -/
def capacity : Nat := 4294967296

/-- A table in which no further text can be numbered. -/
structure Overflow where
  count : Nat
  deriving DecidableEq

def Overflow.message (e : Overflow) : String :=
  s!"interner exceeded capacity: {e.count} strings, max is 4294967295"

/-- The number of a text, unless it would need a new one and the table is full. -/
def intern? (t : NameTable) (text : String) : Except Overflow (Name × NameTable) :=
  if (t.find? text).isSome ∨ t.size < capacity then .ok (t.intern text) else .error ⟨t.size⟩

def text (t : NameTable) (n : Name) : String := t.texts.getD n.raw ""

def describe (t : NameTable) : String := "SharedInterner \x7b len: " ++ toString t.size ++ " \x7d"

/-! ### Texts of numbers -/

theorem text_of_find? {t : NameTable} {text : String} {name : Name}
    (h : t.find? text = some name) : t.text name = text := by
  unfold find? at h
  cases hi : t.texts.findIdx? (· == text) with
  | none => simp [hi] at h
  | some i =>
      have hname : name = ⟨i⟩ := by simpa [hi] using h.symm
      obtain ⟨bound, same, _⟩ := Array.findIdx?_eq_some_iff_getElem.1 hi
      subst hname
      simpa [NameTable.text, Array.getD, bound] using same

/-- The number given out for a text has that text. -/
theorem text_intern (t : NameTable) (text : String) :
    (t.intern text).2.text (t.intern text).1 = text := by
  unfold intern
  split
  · next h => exact text_of_find? h
  · simp [NameTable.text, Array.getD]

/-- Giving out a number changes no text. -/
theorem text_intern_of_lt (t : NameTable) (text : String) {n : Name} (h : n.raw < t.size) :
    (t.intern text).2.text n = t.text n := by
  unfold intern
  split
  · rfl
  · have bound : n.raw < t.texts.size := h
    simp [NameTable.text, Array.getD, bound, Nat.lt_succ_of_lt bound, Array.getElem_push_lt]

end NameTable

end SyntaxForest
