/-
**Tables of distinct texts.**

A table that is only ever asked for the numbers of texts holds no text twice, so two of its
numbers are the same exactly when their texts are.  Numbers that were given out keep their texts
when the table goes on.

Main definitions:

* `NameTable.Issued` — a number that was given out;
* `NameTable.Distinct` — a table that holds no text twice;
* `NameTable.Extends` — a table that goes on from another;
* `NameTable.Reached` — the tables that come from the fresh one.

Main results:

* `NameTable.extends_intern`, `NameTable.issued_intern` — what giving out a number does;
* `NameTable.Extends.text_eq` — a number that was given out keeps its text;
* `NameTable.Distinct.text_injective` — **numbers of the same text are the same**;
* `NameTable.Reached.distinct` — no table that comes from the fresh one holds a text twice.
-/

import SyntaxForest.Syntax.Name

set_option relaxedAutoImplicit false
set_option autoImplicit false

namespace SyntaxForest

namespace NameTable

variable {t u v : NameTable} {n m : Name}

/-- A number that was given out. -/
def Issued (t : NameTable) (n : Name) : Prop := n.raw < t.size

/-- No text is held twice. -/
def Distinct (t : NameTable) : Prop := t.texts.toList.Nodup

/-- A table that goes on from another. -/
def Extends (t u : NameTable) : Prop := t.texts.toList <+: u.texts.toList

/-! ### Going on -/

theorem Extends.refl (t : NameTable) : t.Extends t := List.prefix_refl _

theorem Extends.trans (first : t.Extends u) (second : u.Extends v) : t.Extends v :=
  List.IsPrefix.trans first second

theorem Extends.issued (ext : t.Extends u) (h : t.Issued n) : u.Issued n :=
  Nat.lt_of_lt_of_le h ext.length_le

theorem getElem?_of_issued (h : t.Issued n) : t.texts.toList[n.raw]? = some (t.text n) := by
  have hlt : n.raw < t.texts.size := h
  rw [Array.getElem?_toList, Array.getElem?_eq_getElem hlt, NameTable.text,
    Array.getD_eq_getD_getElem?, Array.getElem?_eq_getElem hlt, Option.getD_some]

/-- A number that was given out keeps its text. -/
theorem Extends.text_eq (ext : t.Extends u) (h : t.Issued n) : u.text n = t.text n := by
  have hbefore := getElem?_of_issued h
  have hafter := getElem?_of_issued (ext.issued h)
  obtain ⟨more, hmore⟩ := ext
  have hlt : n.raw < t.texts.toList.length := h
  rw [← hmore, List.getElem?_append_left hlt, hbefore] at hafter
  exact (Option.some.inj hafter).symm

theorem extends_intern (t : NameTable) (text : String) : t.Extends (t.intern text).2 := by
  unfold intern
  split
  · exact Extends.refl t
  · rw [Extends, Array.toList_push]
    exact List.prefix_append _ _

theorem issued_of_find? {text : String} (h : t.find? text = some n) : t.Issued n := by
  unfold find? at h
  obtain ⟨place, hplace, rfl⟩ := Option.map_eq_some_iff.1 h
  obtain ⟨hlt, -⟩ := Array.findIdx?_eq_some_iff_getElem.1 hplace
  exact hlt

/-- A number is given out. -/
theorem issued_intern (t : NameTable) (text : String) :
    (t.intern text).2.Issued (t.intern text).1 := by
  unfold intern
  split
  · next h => exact issued_of_find? h
  · rw [Issued, size, Array.size_push]
    exact Nat.lt_succ_self _

/-! ### No text twice -/

/-- A text without a number is not held. -/
theorem notMem_of_find?_eq_none {text : String} (h : t.find? text = none) :
    text ∉ t.texts.toList := by
  intro hm
  have hnone := Array.findIdx?_eq_none_iff.1 (Option.map_eq_none_iff.1 h) text
    (Array.mem_toList_iff.1 hm)
  simp at hnone

theorem Distinct.intern (distinct : t.Distinct) (text : String) : (t.intern text).2.Distinct := by
  unfold NameTable.intern
  split
  · exact distinct
  · next h =>
      rw [Distinct, Array.toList_push]
      refine List.nodup_append.2
        ⟨distinct, List.nodup_cons.2 ⟨List.not_mem_nil, List.nodup_nil⟩, ?_⟩
      intro a ha b hb hab
      rw [hab, List.mem_singleton.1 hb] at ha
      exact notMem_of_find?_eq_none h ha

/-- **Numbers of the same text are the same.** -/
theorem Distinct.text_injective (distinct : t.Distinct) (hn : t.Issued n) (hm : t.Issued m)
    (h : t.text n = t.text m) : n = m := by
  have hplace : n.raw = m.raw := by
    refine (List.getElem?_inj hn distinct).1 ?_
    rw [getElem?_of_issued hn, getElem?_of_issued hm, h]
  cases n
  cases m
  exact congrArg Name.mk hplace

theorem distinct_fresh : fresh.Distinct := by
  rw [Distinct, fresh]
  decide

/-- The tables that come from the fresh one. -/
inductive Reached : NameTable → Prop
  | fresh : Reached fresh
  | intern {t : NameTable} (reached : Reached t) (text : String) : Reached (t.intern text).2

theorem Reached.distinct (reached : t.Reached) : t.Distinct := by
  induction reached with
  | fresh => exact distinct_fresh
  | intern _ text ih => exact ih.intern text

end NameTable

end SyntaxForest
