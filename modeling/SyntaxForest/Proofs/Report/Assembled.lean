/-
**How a diagnostic is put together.**

The parts of a diagnostic may come in any order.  Notes, suggestions and further labels only pile
up, and a message takes the place of an earlier one; but a primary label is taken out of the middle
of the labels and put in front of those that came before it.  Still what the labels are in the end
can be read off the parts of each kind alone: the last primary label, if there is one, and after it
all the others in the order in which they came.  So it makes no difference how parts of different
kinds are mixed.

Main definitions:

* `Diagnostic.Part.Kind`, `Diagnostic.Part.kind` — the kinds of parts;
* `Diagnostic.Part.primary?`, `Diagnostic.Part.message?`, … — what a part of a kind says;
* `Diagnostic.assembled` — a diagnostic read off the parts of each kind.

Main results:

* `Diagnostic.add_assembled` — one part more;
* `Diagnostic.build_eq_assembled` — a diagnostic is what its parts say;
* `Diagnostic.assembled_of_parts` — **so it has one primary label at most, which stands in front,
  and parts of different kinds may be mixed at will.**
-/

import SyntaxForest.Report.Diagnostic

set_option relaxedAutoImplicit false
set_option autoImplicit false

namespace SyntaxForest

namespace Diagnostic

/-! ### Kinds of parts -/

namespace Part

inductive Kind
  | message
  | label
  | secondaryLabel
  | note
  | suggestion
  deriving DecidableEq

def kind : Part → Kind
  | .message _ => .message
  | .label _ _ => .label
  | .secondaryLabel _ _ => .secondaryLabel
  | .note _ => .note
  | .suggestion _ => .suggestion

def message? : Part → Option String
  | .message text => some text
  | _ => none

def primary? : Part → Option Label
  | .label span text => some ⟨span, text, true⟩
  | _ => none

def secondary? : Part → Option Label
  | .secondaryLabel span text => some ⟨span, text, false⟩
  | _ => none

def note? : Part → Option String
  | .note text => some text
  | _ => none

def suggestion? : Part → Option String
  | .suggestion text => some text
  | _ => none

/-- The span of a primary label. -/
def primarySpan? (part : Part) : Option Span := part.primary?.map (·.span)

end Part

variable {α : Type} {severity : Severity} {code : Code} {parts others : List Part}

/-- What only parts of a kind say is read off the parts of that kind. -/
theorem filterMap_filter_kind {says? : Part → Option α} {kind : Part.Kind}
    (only : ∀ part, part.kind ≠ kind → says? part = none) (parts : List Part) :
    (parts.filter (·.kind = kind)).filterMap says? = parts.filterMap says? := by
  rw [List.filterMap_filter]
  refine congrArg (parts.filterMap ·) (funext fun part => ?_)
  by_cases h : part.kind = kind
  · rw [if_pos (decide_eq_true h)]
  · rw [only part h, ite_self]

theorem filterMap_congr_kind {says? : Part → Option α} {kind : Part.Kind}
    (only : ∀ part, part.kind ≠ kind → says? part = none)
    (same : parts.filter (·.kind = kind) = others.filter (·.kind = kind)) :
    parts.filterMap says? = others.filterMap says? := by
  rw [← filterMap_filter_kind only parts, same, filterMap_filter_kind only others]

/-! ### Putting parts together -/

/-- A diagnostic read off the parts of each kind: the last message, the last primary label and then
the further ones, the notes and the suggestions. -/
def assembled (severity : Severity) (code : Code) (parts : List Part) : Diagnostic where
  code := code
  severity := severity
  message := (parts.filterMap Part.message?).getLast?.getD ""
  labels := (parts.filterMap Part.primary?).getLast?.toList ++ parts.filterMap Part.secondary?
  notes := parts.filterMap Part.note?
  suggestions := parts.filterMap Part.suggestion?

theorem isPrimary_of_primary? {label : Label}
    (h : label ∈ (parts.filterMap Part.primary?).getLast?) : label.isPrimary = true := by
  obtain ⟨part, -, hpart⟩ := List.mem_filterMap.1 (List.mem_of_getLast? h)
  cases part with
  | label span message =>
      cases hpart
      rfl
  | _ => cases hpart

theorem isPrimary_of_secondary? {label : Label} (h : label ∈ parts.filterMap Part.secondary?) :
    label.isPrimary = false := by
  obtain ⟨part, -, hpart⟩ := List.mem_filterMap.1 h
  cases part with
  | secondaryLabel span message =>
      cases hpart
      rfl
  | _ => cases hpart

/-- Without the primary label the further ones are left. -/
theorem filter_labels_assembled (severity : Severity) (code : Code) (parts : List Part) :
    (assembled severity code parts).labels.filter (!·.isPrimary)
      = parts.filterMap Part.secondary? := by
  have hprimary :
      (parts.filterMap Part.primary?).getLast?.toList.filter (!·.isPrimary) = [] :=
    List.filter_eq_nil_iff.2 fun label hl => by
      rw [isPrimary_of_primary? (Option.mem_toList.1 hl)]
      decide
  have hsecondary : (parts.filterMap Part.secondary?).filter (!·.isPrimary)
      = parts.filterMap Part.secondary? :=
    List.filter_eq_self.2 fun label hl => by
      rw [isPrimary_of_secondary? hl]
      rfl
  rw [assembled, List.filter_append, hprimary, hsecondary, List.nil_append]

/-- **One part more.** -/
theorem add_assembled (severity : Severity) (code : Code) (parts : List Part) (part : Part) :
    (assembled severity code parts).add part = assembled severity code (parts ++ [part]) := by
  cases part with
  | message text =>
      simp [add, withMessage, assembled, Part.message?, Part.primary?, Part.secondary?,
        Part.note?, Part.suggestion?]
  | label span message =>
      -- the former primary label goes, whatever came after it
      rw [add, withLabel, filter_labels_assembled]
      simp [assembled, Part.message?, Part.primary?, Part.secondary?, Part.note?,
        Part.suggestion?]
  | secondaryLabel span message =>
      simp [add, withSecondaryLabel, assembled, Part.message?, Part.primary?, Part.secondary?,
        Part.note?, Part.suggestion?]
  | note text =>
      simp [add, withNote, assembled, Part.message?, Part.primary?, Part.secondary?,
        Part.note?, Part.suggestion?]
  | suggestion text =>
      simp [add, withSuggestion, assembled, Part.message?, Part.primary?, Part.secondary?,
        Part.note?, Part.suggestion?]

theorem foldl_add_assembled (former : List Part) :
    parts.foldl add (assembled severity code former)
      = assembled severity code (former ++ parts) := by
  induction parts generalizing former with
  | nil => rw [List.foldl_nil, List.append_nil]
  | cons part rest ih =>
      rw [List.foldl_cons, add_assembled, ih, List.append_assoc]
      rfl

/-- **A diagnostic is what its parts say.** -/
theorem build_eq_assembled (severity : Severity) (code : Code) (parts : List Part) :
    build severity code parts = assembled severity code parts :=
  foldl_add_assembled []

/-! ### What that means -/

theorem countP_labels_assembled_le (severity : Severity) (code : Code) (parts : List Part) :
    (assembled severity code parts).labels.countP (·.isPrimary) ≤ 1 := by
  have hsecondary : (parts.filterMap Part.secondary?).countP (·.isPrimary) = 0 :=
    List.countP_eq_zero.2 fun label hl => by
      rw [isPrimary_of_secondary? hl]
      decide
  rw [assembled, List.countP_append, hsecondary, Nat.add_zero]
  exact Nat.le_trans List.countP_le_length Option.length_toList_le

theorem primarySpan?_assembled (severity : Severity) (code : Code) (parts : List Part) :
    (assembled severity code parts).primarySpan?
      = (parts.filterMap Part.primarySpan?).getLast? := by
  have hspans : parts.filterMap Part.primarySpan?
      = (parts.filterMap Part.primary?).map (·.span) := List.map_filterMap.symm
  have hsecondary : (parts.filterMap Part.secondary?).find? (·.isPrimary) = none :=
    List.find?_eq_none.2 fun label hl => by
      rw [isPrimary_of_secondary? hl]
      decide
  rw [primarySpan?, assembled, List.find?_append, hsecondary, Option.or_none, hspans,
    List.getLast?_map]
  cases hlast : (parts.filterMap Part.primary?).getLast? with
  | none => rfl
  | some label =>
      have hprimary : label.isPrimary = true := isPrimary_of_primary? hlast
      simp [hprimary]

/-- Parts that are the same of each kind say the same. -/
theorem assembled_congr
    (same : ∀ kind, parts.filter (·.kind = kind) = others.filter (·.kind = kind)) :
    assembled severity code parts = assembled severity code others := by
  have message : parts.filterMap Part.message? = others.filterMap Part.message? :=
    filterMap_congr_kind (fun part h => by cases part <;> simp_all [Part.kind, Part.message?])
      (same .message)
  have primary : parts.filterMap Part.primary? = others.filterMap Part.primary? :=
    filterMap_congr_kind (fun part h => by cases part <;> simp_all [Part.kind, Part.primary?])
      (same .label)
  have secondary : parts.filterMap Part.secondary? = others.filterMap Part.secondary? :=
    filterMap_congr_kind (fun part h => by cases part <;> simp_all [Part.kind, Part.secondary?])
      (same .secondaryLabel)
  have note : parts.filterMap Part.note? = others.filterMap Part.note? :=
    filterMap_congr_kind (fun part h => by cases part <;> simp_all [Part.kind, Part.note?])
      (same .note)
  have suggestion : parts.filterMap Part.suggestion? = others.filterMap Part.suggestion? :=
    filterMap_congr_kind (fun part h => by cases part <;> simp_all [Part.kind, Part.suggestion?])
      (same .suggestion)
  rw [assembled, assembled, message, primary, secondary, note, suggestion]

/-- **Parts of different kinds may be mixed at will.**  A diagnostic that is put together from parts
has the last message, or an empty one; the last primary label in front, if there is one, and after
it the further labels in their order; and the notes and the suggestions in their order.  So it has
at most one primary label, which says where the problem is, and it is the same for any parts that
are the same of each kind. -/
theorem assembled_of_parts (severity : Severity) (code : Code) (parts : List Part) :
    let d := build severity code parts
    d.severity = severity ∧ d.code = code
      ∧ d.message = (parts.filterMap Part.message?).getLast?.getD ""
      ∧ d.labels = (parts.filterMap Part.primary?).getLast?.toList
          ++ parts.filterMap Part.secondary?
      ∧ d.notes = parts.filterMap Part.note?
      ∧ d.suggestions = parts.filterMap Part.suggestion?
      ∧ d.labels.countP (·.isPrimary) ≤ 1
      ∧ d.primarySpan? = (parts.filterMap Part.primarySpan?).getLast?
      ∧ ∀ others : List Part,
          (∀ kind, parts.filter (·.kind = kind) = others.filter (·.kind = kind)) →
          build severity code others = d := by
  intro d
  have assembles : d = assembled severity code parts := build_eq_assembled severity code parts
  rw [assembles]
  refine ⟨rfl, rfl, rfl, rfl, rfl, rfl, countP_labels_assembled_le severity code parts,
    primarySpan?_assembled severity code parts, fun others same => ?_⟩
  rw [build_eq_assembled, assembled_congr same]

/-- Two primary labels among other parts, in two orders. -/
theorem assembled_of_mixed :
    build .error .semantic
        [.label ⟨0, 1⟩ "here", .note "a", .secondaryLabel ⟨2, 3⟩ "there",
          .label ⟨4, 5⟩ "rather here", .message "wrong"]
      = build .error .semantic
        [.message "wrong", .secondaryLabel ⟨2, 3⟩ "there", .label ⟨0, 1⟩ "here",
          .label ⟨4, 5⟩ "rather here", .note "a"] := by
  refine (assembled_of_parts .error .semantic _).2.2.2.2.2.2.2.2 _ fun kind => ?_
  cases kind <;> rfl

end Diagnostic

end SyntaxForest
