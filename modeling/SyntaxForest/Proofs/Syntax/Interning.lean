/-
**A map beside the texts.**

A table of names finds the number of a text by going through its texts.  A program that has many of
them keeps a second table, a map from texts to numbers, and then there are two records of one
numbering that may come apart: a new text is pushed to the one and inserted into the other.  It is
given a number in two steps, since the tables are shared: first the map is asked, and if it does not
know the text the tables are taken for writing, and the map is asked once more, because somebody
else may have numbered the text in between.

The two records do not come apart.  At every moment the map and the texts are inverse to each other,
and whatever is asked of them they answer as a table of texts alone does.  A text whose two steps
were interrupted is numbered as if both had been done when the second was.

Main definitions:

* `Interner` — a map from texts to numbers beside the texts;
* `Interner.settle`, `Interner.tryIntern` — the second step, and both;
* `Interner.fresh` — the tables with the common texts, numbered one after the other;
* `Interner.Inverse` — the two tables are inverse to each other;
* `Interner.Mirrors` — they hold the texts of a table of names.

Main results:

* `Interner.Inverse.insert` — a new text leaves the tables inverse;
* `Interner.Mirrors.after`, `Interner.Mirrors.answer` — **a request is answered as by a table of
  names**;
* `Interner.mirrors_fresh` — so are the tables with the common texts;
* `Interner.Mirrors.tryIntern_across` — two steps with other requests in between.
-/

import Mathlib.Data.List.Nodup
import SyntaxForest.Proofs.Syntax.Numbering

set_option relaxedAutoImplicit false
set_option autoImplicit false

namespace SyntaxForest

open NameTable (Overflow Request capacity)

/-- A map from texts to numbers beside the texts; a text stands at its number. -/
structure Interner where
  map : Std.HashMap String Nat
  strings : Array String

namespace Interner

variable {i j : Interner} {t u : NameTable} {text : String}

/-! ### What can be asked -/

/-- The number of a text, if it has one. -/
def get (i : Interner) (text : String) : Option Name := i.map[text]?.map Name.mk

/-- The text of a number, empty if it was never given out. -/
def lookup (i : Interner) (n : Name) : String := i.strings[n.raw]?.getD ""

/-- The second step for a text that the map did not know: it is asked again, and only then the text
is pushed and its number inserted. -/
def settle (i : Interner) (text : String) : Except Overflow (Name × Interner) :=
  match i.map[text]? with
  | some number => .ok (⟨number⟩, i)
  | none =>
      if i.strings.size < capacity then
        .ok (⟨i.strings.size⟩, ⟨i.map.insert text i.strings.size, i.strings.push text⟩)
      else .error ⟨i.strings.size⟩

/-- Both steps, the second on what has become of the tables since the first. -/
def tryInternAcross (i j : Interner) (text : String) : Except Overflow (Name × Interner) :=
  match i.map[text]? with
  | some number => .ok (⟨number⟩, j)
  | none => j.settle text

/-- **The number of a text,** the next one if it has none yet. -/
def tryIntern (i : Interner) (text : String) : Except Overflow (Name × Interner) :=
  i.tryInternAcross i text

inductive Answer
  | number (n : Name)
  | full (overflow : Overflow)
  | found (n : Option Name)
  | text (text : String)

/-- The number that was given out, or what is in the way. -/
def Answer.ofNumbering {α : Type} : Except Overflow (Name × α) → Answer
  | .ok (n, _) => number n
  | .error overflow => full overflow

def answer (i : Interner) : Request → Answer
  | .intern text => .ofNumbering (i.tryIntern text)
  | .intern? text => .ofNumbering (i.tryIntern text)
  | .find? text => .found (i.get text)
  | .text n => .text (i.lookup n)

def after (i : Interner) : Request → Interner
  | .intern text | .intern? text =>
      match i.tryIntern text with
      | .ok (_, j) => j
      | .error _ => i
  | .find? _ => i
  | .text _ => i

def runAll (i : Interner) (requests : List Request) : Interner := requests.foldl after i

/-- The tables with the empty text only. -/
def start : Interner := ⟨(∅ : Std.HashMap String Nat).insert "" 0, #[""]⟩

/-- **The tables with the common texts,** numbered one after the other. -/
def fresh : Interner := start.runAll (NameTable.common.tail.map .intern)

end Interner

def NameTable.answer (t : NameTable) : Request → Interner.Answer
  | .intern text => .number (t.intern text).1
  | .intern? text => .ofNumbering (t.intern? text)
  | .find? text => .found (t.find? text)
  | .text n => .text (t.text n)

namespace Interner

variable {i j : Interner} {t u : NameTable} {text : String}

/-! ### Inverse tables -/

/-- The two tables are inverse to each other. -/
def Inverse (i : Interner) : Prop :=
  ∀ (text : String) (number : Nat), i.map[text]? = some number ↔ i.strings[number]? = some text

theorem inverse_start : start.Inverse := by
  intro text number
  rw [start, Std.HashMap.getElem?_insert, Std.HashMap.getElem?_empty]
  cases number with
  | zero => simp
  | succ number => simp

/-- **A text that the map does not know** is pushed and inserted, and the tables stay inverse. -/
theorem Inverse.insert (inverse : i.Inverse) (unknown : i.map[text]? = none) :
    Inverse ⟨i.map.insert text i.strings.size, i.strings.push text⟩ := by
  intro other number
  rw [Std.HashMap.getElem?_insert, Array.getElem?_push]
  by_cases heq : text = other
  · -- the text has the new number, and no old one
    subst heq
    rw [if_pos (beq_self_eq_true text), Option.some_inj]
    by_cases hnumber : number = i.strings.size
    · rw [if_pos hnumber]
      exact ⟨fun _ => rfl, fun _ => hnumber.symm⟩
    · rw [if_neg hnumber, ← inverse text number, unknown]
      exact ⟨fun h => absurd h.symm hnumber, fun h => (nomatch h)⟩
  · -- another text has an old number, and not the new one
    rw [if_neg (by simpa using heq), inverse other number]
    by_cases hnumber : number = i.strings.size
    · rw [if_pos hnumber, hnumber, Array.getElem?_size]
      exact ⟨fun h => (nomatch h), fun h => absurd (Option.some.inj h) heq⟩
    · rw [if_neg hnumber]

/-- What the second step makes of the tables. -/
theorem settle_cases (i : Interner) (text : String) :
    (∃ number, i.map[text]? = some number ∧ i.settle text = .ok (⟨number⟩, i))
      ∨ i.map[text]? = none ∧ (i.strings.size < capacity ∧ i.settle text
            = .ok (⟨i.strings.size⟩, ⟨i.map.insert text i.strings.size, i.strings.push text⟩)
          ∨ ¬i.strings.size < capacity ∧ i.settle text = .error ⟨i.strings.size⟩) := by
  unfold settle
  cases h : i.map[text]? with
  | some number => exact Or.inl ⟨number, rfl, rfl⟩
  | none =>
      by_cases room : i.strings.size < capacity
      · exact Or.inr ⟨rfl, Or.inl ⟨room, if_pos room⟩⟩
      · exact Or.inr ⟨rfl, Or.inr ⟨room, if_neg room⟩⟩

theorem tryIntern_eq_settle (i : Interner) (text : String) : i.tryIntern text = i.settle text := by
  unfold tryIntern tryInternAcross settle
  cases i.map[text]? <;> rfl

/-! ### Tables that mirror a table of names -/

/-- The tables hold the texts of a table of names, and are inverse to each other. -/
structure Mirrors (i : Interner) (t : NameTable) : Prop where
  strings : i.strings = t.texts
  inverse : i.Inverse

theorem Mirrors.lookup (mirrors : i.Mirrors t) (n : Name) : i.lookup n = t.text n := by
  rw [Interner.lookup, mirrors.strings, NameTable.text, Array.getD_eq_getD_getElem?]

/-- **The map knows the numbers that are found by going through the texts.** -/
theorem Mirrors.get (mirrors : i.Mirrors t) (text : String) : i.get text = t.find? text := by
  unfold Interner.get
  cases hfind : t.find? text with
  | some n =>
      have hplace := NameTable.getElem?_of_issued (NameTable.issued_of_find? hfind)
      rw [NameTable.text_of_find? hfind, Array.getElem?_toList, ← mirrors.strings,
        ← mirrors.inverse] at hplace
      rw [hplace, Option.map_some]
  | none =>
      rw [Option.map_eq_none_iff, Option.eq_none_iff_forall_ne_some]
      intro number hnumber
      rw [mirrors.inverse, mirrors.strings, ← Array.getElem?_toList] at hnumber
      exact NameTable.find?_eq_none_iff.1 hfind (List.mem_of_getElem? hnumber)

/-- A text is numbered alike as long as there is room. -/
theorem Mirrors.tryIntern (mirrors : i.Mirrors t) (room : t.size < capacity) (text : String) :
    ∃ j, i.tryIntern text = .ok ((t.intern text).1, j) ∧ j.Mirrors (t.intern text).2 := by
  have hget := mirrors.get text
  rw [tryIntern_eq_settle]
  rcases i.settle_cases text with ⟨number, known, hsettle⟩ | ⟨unknown, hnew⟩
  · rw [Interner.get, known] at hget
    rw [NameTable.intern_of_find? hget.symm]
    exact ⟨i, hsettle, mirrors⟩
  · rw [Interner.get, unknown] at hget
    rw [NameTable.intern_of_find?_eq_none hget.symm]
    have hsize : i.strings.size = t.size := congrArg Array.size mirrors.strings
    rcases hnew with ⟨-, hsettle⟩ | ⟨full, -⟩
    · refine ⟨_, hsize ▸ hsettle, ?_, mirrors.inverse.insert unknown⟩
      rw [mirrors.strings]
    · exact absurd (hsize ▸ room) full

/-- **A request is answered as by a table of names.** -/
theorem Mirrors.answer (mirrors : i.Mirrors t) (room : t.size < capacity) (request : Request) :
    i.answer request = t.answer request := by
  cases request with
  | intern text =>
      obtain ⟨j, hintern, -⟩ := mirrors.tryIntern room text
      rw [Interner.answer, hintern]
      rfl
  | intern? text =>
      obtain ⟨j, hintern, -⟩ := mirrors.tryIntern room text
      rw [Interner.answer, hintern, NameTable.answer, NameTable.intern?_of_lt room]
      rfl
  | find? text => rw [Interner.answer, mirrors.get, NameTable.answer]
  | text n => rw [Interner.answer, mirrors.lookup, NameTable.answer]

/-- **And the tables go on alike.** -/
theorem Mirrors.after (mirrors : i.Mirrors t) (room : t.size < capacity) (request : Request) :
    (i.after request).Mirrors (t.after request) := by
  cases request with
  | intern text =>
      obtain ⟨j, hintern, later⟩ := mirrors.tryIntern room text
      rw [Interner.after, hintern]
      exact later
  | intern? text =>
      obtain ⟨j, hintern, later⟩ := mirrors.tryIntern room text
      rw [Interner.after, hintern, NameTable.after, NameTable.intern?_of_lt room]
      exact later
  | find? text => exact mirrors
  | text n => exact mirrors

theorem Mirrors.runAll (mirrors : i.Mirrors t) (requests : List Request)
    (room : (t.runAll requests).size < capacity) :
    (i.runAll requests).Mirrors (t.runAll requests) := by
  induction requests generalizing i t with
  | nil => exact mirrors
  | cons request rest ih =>
      have hroom : t.size < capacity :=
        Nat.lt_of_le_of_lt (NameTable.extends_runAll t (request :: rest)).length_le room
      exact ih (mirrors.after hroom request) room

/-- The tables with the common texts hold each of them once. -/
theorem mirrors_fresh : fresh.Mirrors NameTable.fresh := by
  have first : start.Mirrors ⟨#[""]⟩ := ⟨rfl, inverse_start⟩
  have empty : NameTable.after ⟨#[]⟩ (.intern "") = ⟨#[""]⟩ := by
    rw [NameTable.after,
      NameTable.intern_of_find?_eq_none (NameTable.find?_eq_none_iff.2 List.not_mem_nil)]
    rfl
  obtain ⟨rest, hrest⟩ : ∃ rest, NameTable.common = "" :: rest := ⟨_, rfl⟩
  have same : NameTable.fresh = NameTable.runAll ⟨#[""]⟩ (rest.map .intern) := by
    rw [NameTable.fresh_eq_runAll, hrest, List.map_cons, NameTable.runAll, List.foldl_cons, empty]
    rfl
  have short : 1 + (rest.map Request.intern).length < capacity := by
    have length := congrArg List.length hrest
    rw [List.length_map]
    rw [List.length_cons] at length
    exact Nat.lt_of_le_of_lt (Nat.le_of_eq (Nat.add_comm 1 _)) (length ▸ (by decide))
  rw [same, fresh, hrest, List.tail_cons]
  exact first.runAll _ (Nat.lt_of_le_of_lt (NameTable.size_runAll_le _ _) short)

/-! ### Interruptions -/

/-- **Two steps with other requests in between** number a text as if both had been done when the
second was. -/
theorem Mirrors.tryIntern_across (mirrors : i.Mirrors t) (later : j.Mirrors u) (ext : t.Extends u)
    (text : String) : i.tryInternAcross j text = j.tryIntern text := by
  rw [tryIntern_eq_settle, tryInternAcross]
  cases known : i.map[text]? with
  | none => rfl
  | some number =>
      have hplace := (mirrors.inverse text number).1 known
      rw [mirrors.strings, ← Array.getElem?_toList] at hplace
      obtain ⟨more, hmore⟩ := ext
      have still : j.map[text]? = some number := by
        rw [later.inverse, later.strings, ← Array.getElem?_toList, ← hmore]
        obtain ⟨hlt, -⟩ := List.getElem?_eq_some_iff.1 hplace
        exact (List.getElem?_append_left hlt).trans hplace
      rw [settle, still]

end Interner

end SyntaxForest
