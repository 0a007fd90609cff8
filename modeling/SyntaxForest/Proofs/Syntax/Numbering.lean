/-
**The numbering of texts.**

A table starts with the common texts and grows by what it is asked to number.  It keeps nothing
but its texts, so all that it tells — the number of a text, the text of a number, how many there
are — must agree by itself, whatever is asked and in whatever order.  It does: numbers and texts
are in bijection at every moment, and what has once been told is told ever after.

Main definitions:

* `NameTable.Request`, `NameTable.after`, `NameTable.runAll` — what a table can be asked;
* `NameTable.Numbers` — a table whose numbers and texts are in bijection.

Main results:

* `NameTable.Distinct.find?_eq_some_iff` — which number a text has;
* `NameTable.texts_runAll` — the texts of a table are the distinct ones among those that it was
  asked to number, in the order in which they first came;
* `NameTable.Reached.numbers` — **every table that comes from the fresh one is a bijection**;
* `NameTable.Extends.find?` — a text keeps its number.
-/

import SyntaxForest.Proofs.Syntax.Names

set_option relaxedAutoImplicit false
set_option autoImplicit false

namespace SyntaxForest

namespace NameTable

variable {t u : NameTable} {n : Name} {text : String}

/-! ### What can be asked -/

inductive Request
  | intern (text : String)
  | intern? (text : String)
  | find? (text : String)
  | text (name : Name)

/-- The text that a request asks to number. -/
def Request.given? : Request → Option String
  | .intern text => some text
  | .intern? text => some text
  | .find? _ => none
  | .text _ => none

def after (t : NameTable) : Request → NameTable
  | .intern text => (t.intern text).2
  | .intern? text =>
      match t.intern? text with
      | .ok (_, u) => u
      | .error _ => t
  | .find? _ => t
  | .text _ => t

def runAll (t : NameTable) (requests : List Request) : NameTable := requests.foldl after t

theorem intern?_of_lt (room : t.size < capacity) (text : String) :
    t.intern? text = .ok (t.intern text) := if_pos (Or.inr room)

/-- A request numbers a text or changes nothing. -/
theorem after_cases (t : NameTable) (request : Request) :
    t.after request = t ∨ ∃ text, t.after request = (t.intern text).2 := by
  cases request with
  | intern text => exact Or.inr ⟨text, rfl⟩
  | intern? text =>
      by_cases room : (t.find? text).isSome ∨ t.size < capacity
      · refine Or.inr ⟨text, ?_⟩
        rw [after, intern?, if_pos room]
      · refine Or.inl ?_
        rw [after, intern?, if_neg room]
  | find? text => exact Or.inl rfl
  | text name => exact Or.inl rfl

theorem Reached.after (reached : t.Reached) (request : Request) : (t.after request).Reached := by
  rcases after_cases t request with h | ⟨text, h⟩
  · rwa [h]
  · rw [h]
    exact reached.intern text

theorem Reached.runAll (reached : t.Reached) (requests : List Request) :
    (t.runAll requests).Reached := by
  induction requests generalizing t with
  | nil => exact reached
  | cons request rest ih => exact ih (reached.after request)

theorem Distinct.after (distinct : t.Distinct) (request : Request) :
    (t.after request).Distinct := by
  rcases after_cases t request with h | ⟨text, h⟩
  · rwa [h]
  · rw [h]
    exact distinct.intern text

theorem extends_after (t : NameTable) (request : Request) : t.Extends (t.after request) := by
  rcases after_cases t request with h | ⟨text, h⟩
  · rw [h]
    exact Extends.refl t
  · rw [h]
    exact extends_intern t text

theorem extends_runAll (t : NameTable) (requests : List Request) :
    t.Extends (t.runAll requests) := by
  induction requests generalizing t with
  | nil => exact Extends.refl t
  | cons request rest ih => exact (extends_after t request).trans (ih _)

/-! ### Numbers of texts -/

theorem mem_of_find? (h : t.find? text = some n) : text ∈ t.texts.toList := by
  have hplace := getElem?_of_issued (issued_of_find? h)
  rw [text_of_find? h] at hplace
  exact List.mem_of_getElem? hplace

theorem find?_eq_none_iff : t.find? text = none ↔ text ∉ t.texts.toList := by
  refine ⟨notMem_of_find?_eq_none, fun h => ?_⟩
  cases hfind : t.find? text with
  | none => rfl
  | some n => exact absurd (mem_of_find? hfind) h

/-- **The number of a text** is the one that was given out and has this text. -/
theorem Distinct.find?_eq_some_iff (distinct : t.Distinct) :
    t.find? text = some n ↔ t.Issued n ∧ t.text n = text := by
  refine ⟨fun h => ⟨issued_of_find? h, text_of_find? h⟩, fun ⟨issued, htext⟩ => ?_⟩
  cases hfind : t.find? text with
  | none =>
      have hheld := List.mem_of_getElem? (getElem?_of_issued issued)
      rw [htext] at hheld
      exact absurd hheld (find?_eq_none_iff.1 hfind)
  | some m =>
      rw [distinct.text_injective (issued_of_find? hfind) issued
        ((text_of_find? hfind).trans htext.symm)]

theorem Extends.find? (ext : t.Extends u) (distinct : u.Distinct) (h : t.find? text = some n) :
    u.find? text = some n := by
  have issued := issued_of_find? h
  exact distinct.find?_eq_some_iff.2
    ⟨ext.issued issued, (ext.text_eq issued).trans (text_of_find? h)⟩

theorem intern_of_find? (h : t.find? text = some n) : t.intern text = (n, t) := by
  rw [intern, h]

theorem intern_of_find?_eq_none (h : t.find? text = none) :
    t.intern text = (⟨t.size⟩, ⟨t.texts.push text⟩) := by
  rw [intern, h]
  rfl

theorem Distinct.find?_intern (distinct : t.Distinct) (text : String) :
    (t.intern text).2.find? text = some (t.intern text).1 :=
  (distinct.intern text).find?_eq_some_iff.2 ⟨issued_intern t text, text_intern t text⟩

/-! ### The texts of a table -/

theorem texts_intern (t : NameTable) (text : String) : (t.intern text).2.texts.toList
    = if text ∈ t.texts.toList then t.texts.toList else t.texts.toList ++ [text] := by
  cases hfind : t.find? text with
  | none =>
      rw [intern_of_find?_eq_none hfind, if_neg (find?_eq_none_iff.1 hfind)]
      exact Array.toList_push
  | some n => rw [intern_of_find? hfind, if_pos (mem_of_find? hfind)]

theorem size_intern_le (t : NameTable) (text : String) : (t.intern text).2.size ≤ t.size + 1 := by
  rw [intern]
  split
  · exact Nat.le_succ _
  · exact Nat.le_of_eq (Array.size_push text)

theorem eraseDups_concat (texts : List String) (text : String) : (texts ++ [text]).eraseDups
    = if text ∈ texts.eraseDups then texts.eraseDups else texts.eraseDups ++ [text] := by
  rw [List.eraseDups_append, List.cons_removeAll]
  by_cases h : text ∈ texts
  · simp [h, List.removeAll]
  · simp only [h, List.removeAll, List.contains_eq_mem, decide_false, if_true, List.filter_nil,
      List.mem_eraseDups, if_false]
    rfl

theorem texts_intern_of_eq {given : List String} (h : t.texts.toList = given.eraseDups)
    (text : String) : (t.intern text).2.texts.toList = (given ++ [text]).eraseDups := by
  rw [texts_intern, h, eraseDups_concat]

/-- **The texts of a table are the distinct ones among those that came,** as long as there is
room. -/
theorem texts_runAll {given : List String} (requests : List Request)
    (h : t.texts.toList = given.eraseDups) (room : (t.runAll requests).size < capacity) :
    (t.runAll requests).texts.toList
      = (given ++ requests.filterMap Request.given?).eraseDups := by
  induction requests generalizing t given with
  | nil =>
      rw [List.filterMap_nil, List.append_nil]
      exact h
  | cons request rest ih =>
      have hroom : t.size < capacity :=
        Nat.lt_of_le_of_lt (extends_runAll t (request :: rest)).length_le room
      -- only interning gives a text, and with room both ways of it are one
      cases request with
      | intern text =>
          have hrest := ih (texts_intern_of_eq h text) room
          rwa [List.append_assoc] at hrest
      | intern? text =>
          have hafter : t.after (.intern? text) = (t.intern text).2 := by
            rw [after, intern?_of_lt hroom]
          have htexts : (t.after (.intern? text)).texts.toList
              = (given ++ [text]).eraseDups := by
            rw [hafter]
            exact texts_intern_of_eq h text
          have hrest := ih htexts room
          rwa [List.append_assoc] at hrest
      | find? text => exact ih h room
      | text name => exact ih h room

theorem texts_fresh : fresh.texts.toList = common.eraseDups := by
  rw [fresh]
  decide

/-- A request numbers at most one text. -/
theorem size_runAll_le (t : NameTable) (requests : List Request) :
    (t.runAll requests).size ≤ t.size + requests.length := by
  induction requests generalizing t with
  | nil => exact Nat.le_refl _
  | cons request rest ih =>
      have hstep : (t.after request).size ≤ t.size + 1 := by
        rcases after_cases t request with h | ⟨text, h⟩
        · rw [h]
          exact Nat.le_succ _
        · rw [h]
          exact size_intern_le t text
      calc ((t.after request).runAll rest).size
          ≤ (t.after request).size + rest.length := ih _
        _ ≤ t.size + 1 + rest.length := Nat.add_le_add_right hstep _
        _ = t.size + (request :: rest).length := by rw [List.length_cons, Nat.add_right_comm]; rfl

/-- The fresh table is what numbering the common texts in their order makes of a table without
texts. -/
theorem fresh_eq_runAll : fresh = runAll ⟨#[]⟩ (common.map Request.intern) := by
  have room : (runAll ⟨#[]⟩ (common.map Request.intern)).size < capacity :=
    Nat.lt_of_le_of_lt (size_runAll_le _ _) (by decide)
  have hstart : (⟨#[]⟩ : NameTable).texts.toList = ([] : List String).eraseDups := rfl
  have htexts := texts_runAll _ hstart room
  rw [List.nil_append, List.filterMap_map] at htexts
  have hcommon : common.filterMap (Request.given? ∘ Request.intern) = common :=
    List.filterMap_some
  rw [hcommon, ← texts_fresh, Array.toList_inj] at htexts
  exact (congrArg NameTable.mk htexts).symm

/-! ### Bijections -/

/-- A table whose numbers and texts are in bijection. -/
structure Numbers (t : NameTable) : Prop where
  text_intern : ∀ text, (t.intern text).2.text (t.intern text).1 = text
  /-- Two texts are given the same number, now and later, only if they are the same. -/
  intern_eq_iff : ∀ a b later,
    (t.intern a).1 = (((t.intern a).2.runAll later).intern b).1 ↔ a = b
  find?_eq_iff : ∀ text n, t.find? text = some n ↔ t.Issued n ∧ t.text n = text
  distinct : t.Distinct
  next : ∀ text, if text ∈ t.texts.toList then (t.intern text).2 = t
    else (t.intern text).1 = ⟨t.size⟩ ∧ (t.intern text).2.texts = t.texts.push text
  /-- The number of the empty text has that text, and no other number that was given out. -/
  empty : ∀ n, t.Issued n ∧ t.text n = "" ↔ n = Name.empty
  unissued : ∀ n, ¬ t.Issued n → t.text n = ""
  text_later : ∀ n later, t.Issued n → (t.runAll later).text n = t.text n
  find?_later : ∀ text n later, t.find? text = some n → (t.runAll later).find? text = some n

theorem find?_fresh_empty : fresh.find? "" = some Name.empty :=
  distinct_fresh.find?_eq_some_iff.2 ⟨show 0 < fresh.size by decide, rfl⟩

theorem Reached.find?_empty (reached : t.Reached) : t.find? "" = some Name.empty := by
  induction reached with
  | fresh => exact find?_fresh_empty
  | intern reached text ih =>
      exact (extends_intern _ text).find? (reached.distinct.intern text) ih

/-- **Every table that comes from the fresh one is a bijection.** -/
theorem Reached.numbers (reached : t.Reached) : t.Numbers where
  text_intern := NameTable.text_intern t
  intern_eq_iff a b later := by
    have hfirst := reached.distinct.find?_intern a
    have distinct := ((reached.intern a).runAll later).distinct
    have hfind := (extends_runAll (t.intern a).2 later).find? distinct hfirst
    constructor
    · intro heq
      have htext := text_intern ((t.intern a).2.runAll later) b
      rw [← heq, text_intern_of_lt _ _ (issued_of_find? hfind), text_of_find? hfind] at htext
      exact htext
    · rintro rfl
      rw [intern_of_find? hfind]
  find?_eq_iff text n := reached.distinct.find?_eq_some_iff
  distinct := reached.distinct
  next text := by
    cases hfind : t.find? text with
    | none =>
        rw [if_neg (find?_eq_none_iff.1 hfind), intern_of_find?_eq_none hfind]
        exact ⟨rfl, rfl⟩
    | some n =>
        rw [if_pos (mem_of_find? hfind), intern_of_find? hfind]
  empty n := by
    rw [← reached.distinct.find?_eq_some_iff, reached.find?_empty, Option.some_inj]
    exact eq_comm
  unissued n h := by
    have hout : t.texts.size ≤ n.raw := Nat.le_of_not_lt h
    rw [NameTable.text, Array.getD_eq_getD_getElem?, Array.getElem?_eq_none hout, Option.getD_none]
  text_later n later issued := (extends_runAll t later).text_eq issued
  find?_later text n later h :=
    (extends_runAll t later).find? (reached.runAll later).distinct h

end NameTable

end SyntaxForest
