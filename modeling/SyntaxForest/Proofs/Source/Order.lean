/-
**Positions come in the order of offsets.**

A column starts anew on every line and counts characters, so neither number of a position grows
with the offset.  The two together do: a text that goes on ends later, on the same line with a
greater column or on a later line.  An offset inside a character or past the end stands for an
earlier one, and two offsets may have one position; offsets at which a character starts or the
source ends stand for themselves, so their positions tell them apart.

Main definitions:

* `Position.Before` — one position comes before another;
* `Text.IsCut` — a character starts at an offset, or the text ends there.

Main results:

* `Position.before_append` — a text that goes on ends later;
* `Position.scan_le_scan` — **a later offset has no earlier position**;
* `Position.scan_before_scan` — **the later of two cuts has the later position.**
-/

import SyntaxForest.Proofs.Source.Scanning
import SyntaxForest.Proofs.Report.Queued

set_option relaxedAutoImplicit false
set_option autoImplicit false

namespace SyntaxForest

/-! ### Texts that go on -/

namespace Position

/-- One position comes before another: on an earlier line, or on the same one further left. -/
def Before (a b : Position) : Prop :=
  a.line < b.line ∨ a.line = b.line ∧ a.column < b.column

variable {a b c : Position}

theorem Before.trans (first : a.Before b) (second : b.Before c) : a.Before c := by
  unfold Before at *
  omega

theorem Before.le (h : a.Before b) : a.le b = true := by
  rw [le_iff]
  unfold Before at h
  omega

theorem Before.not_le (h : a.Before b) : b.le a = false := by
  refine Bool.eq_false_iff.2 fun hle => ?_
  rw [le_iff] at hle
  unfold Before at h
  omega

/-- A character more is a column more, or a line more if it is a newline. -/
theorem after_concat (text : List Char) (c : Char) : after (text ++ [c])
    = if c = '\n' then ⟨(after text).line + 1, 1⟩
      else ⟨(after text).line, (after text).column + 1⟩ := by
  unfold after
  rw [List.count_append, List.reverse_append, List.reverse_singleton, List.singleton_append,
    List.takeWhile_cons]
  by_cases hc : c = '\n'
  · subst hc
    rw [if_pos rfl, if_neg (by simp)]
    rfl
  · have hnone : [c].count '\n' = 0 := List.count_eq_zero.2 (by simpa using Ne.symm hc)
    rw [if_neg hc, if_pos (decide_eq_true hc), hnone]
    rfl

/-- **A text that goes on ends later.** -/
theorem before_append (text : List Char) {more : List Char} (goes : more ≠ []) :
    (after text).Before (after (text ++ more)) := by
  induction more using List.reverseRecOn with
  | nil => exact absurd rfl goes
  | append_singleton more c ih =>
      have hstep : (after (text ++ more)).Before (after (text ++ (more ++ [c]))) := by
        rw [← List.append_assoc, after_concat, Before]
        split
        · exact Or.inl (Nat.lt_succ_self _)
        · exact Or.inr ⟨rfl, Nat.lt_succ_self _⟩
      by_cases hmore : more = []
      · subst hmore
        rwa [List.append_nil] at hstep
      · exact (ih hmore).trans hstep

end Position

/-! ### Offsets -/

namespace Text

/-- A character of the text starts at an offset, or the text ends there. -/
def IsCut (text : List Char) (offset : Nat) : Prop :=
  ∃ head rest, text = head ++ rest ∧ byteLength head = offset

variable {text : List Char} {a b : Nat}

/-- What is before a later offset goes on from what is before an earlier one. -/
theorem before_prefix_before (text : List Char) (h : a ≤ b) :
    before text a <+: before text b := by
  induction text generalizing a b with
  | nil => exact List.prefix_rfl
  | cons c rest ih =>
      rw [before, before]
      split
      · next hends =>
          rw [if_pos (Nat.le_trans hends h)]
          exact (List.cons_prefix_cons).2 ⟨rfl, ih (Nat.sub_le_sub_right h _)⟩
      · exact List.nil_prefix

/-- The text before a cut ends there. -/
theorem IsCut.byteLength_before (cut : IsCut text a) : byteLength (before text a) = a := by
  obtain ⟨head, rest, rfl, rfl⟩ := cut
  induction head with
  | nil => cases rest <;> simp [before, byteLength, Nat.not_le.2 (Char.utf8Size_pos _)]
  | cons c later ih =>
      rw [List.cons_append, byteLength, before, if_pos (Nat.le_add_right _ _),
        Nat.add_sub_cancel_left, byteLength, ih]

end Text

namespace Position

open Text

variable {source : List Char} {a b : Nat}

/-- **A later offset has no earlier position.** -/
theorem scan_le_scan (source : List Char) (h : a ≤ b) :
    (scan source a).le (scan source b) = true := by
  obtain ⟨more, hmore⟩ := before_prefix_before source h
  rw [scan_eq, scan_eq, ← hmore]
  by_cases hnil : more = []
  · rw [hnil, List.append_nil]
    exact le_refl _
  · exact (before_append _ hnil).le

/-- **The later of two cuts has the later position.** -/
theorem scan_before_scan (cut : IsCut source a) (cut' : IsCut source b) (h : a < b) :
    (scan source a).Before (scan source b) := by
  obtain ⟨more, hmore⟩ := before_prefix_before source (Nat.le_of_lt h)
  rw [scan_eq, scan_eq, ← hmore]
  refine before_append _ fun hnil => ?_
  rw [hnil, List.append_nil] at hmore
  have := cut.byteLength_before
  rw [hmore, cut'.byteLength_before] at this
  omega

theorem scan_le_scan_iff (cut : IsCut source a) (cut' : IsCut source b) :
    (scan source a).le (scan source b) = true ↔ a ≤ b := by
  refine ⟨fun hle => Nat.le_of_not_lt fun hlt => ?_, scan_le_scan source⟩
  rw [(scan_before_scan cut' cut hlt).not_le] at hle
  cases hle

end Position

end SyntaxForest
