/-
**Reports are collected, cut off and put in order.**

A report is what is collected, passed through a queue.  Every diagnostic that is collected is an
error with one label, which says where the problem is; so the queue cuts off the collected list at
its limit and sorts what is left by the places of the labels.  A terminal with the same source
finds a label in a table of the same lines, and the text that it writes has the place by which the
diagnostic was sorted in the line of the label.

Main definitions:

* `Diagnostic.SinglePlace` — a diagnostic that speaks of one place.

Main results:

* `Forest.Treelike.singlePlace_of_mem_collect` — what is collected are errors of one place each;
* `Terminal.label_withSource` — a terminal shows a label at the place of its diagnostic;
* `Terminal.emit_withSource` — what it writes for an error of one place;
* `Document.report_of_history` — **a report is what is collected, cut off at the limit, in the
  order of the places that a terminal writes.**
-/

import SyntaxForest.Proofs.Report.Collected
import SyntaxForest.Proofs.Report.Queued
import SyntaxForest.Report.Terminal

set_option relaxedAutoImplicit false
set_option autoImplicit false

namespace SyntaxForest

/-! ### Diagnostics of one place -/

/-- A diagnostic whose only label is the primary one. -/
def Diagnostic.SinglePlace (d : Diagnostic) : Prop :=
  ∃ label, d.labels = [label] ∧ label.isPrimary = true

theorem Diagnostic.singlePlace_tooMany (limit : Nat) (span : Span) :
    (tooMany limit span).SinglePlace := ⟨_, rfl, rfl⟩

/-- What is collected are errors of one place each, and none stands for others. -/
theorem Forest.Treelike.singlePlace_of_mem_collect {d : Document} {ds : List Diagnostic}
    (tree : d.forest.Treelike) (known : d.root.raw < d.forest.size) (collected : d.collect = .ok ds)
    {x : Diagnostic} (hx : x ∈ ds) :
    x.severity = .error ∧ x.code.text ≠ "E9002" ∧ x.SinglePlace := by
  have hnode : ∀ ids : List NodeId, x ∈ ids.flatMap d.forest.diagnostics →
      x.severity = .error ∧ x.code.text ≠ "E9002" ∧ x.SinglePlace := by
    intro ids hx
    obtain ⟨id, -, hx⟩ := List.mem_flatMap.1 hx
    unfold Forest.diagnostics at hx
    cases hn : d.forest.node? id with
    | none =>
        rw [hn] at hx
        cases hx
    | some node =>
        rw [hn] at hx
        obtain ⟨error, -, rfl⟩ := List.mem_map.1 hx
        exact ⟨rfl, show Code.semantic.text ≠ "E9002" by decide, _, rfl, rfl⟩
  rw [tree.collect_eq known] at collected
  cases collected
  rcases List.mem_append.1 hx with hx | hx
  · rcases List.mem_append.1 hx with hx | hx
    · obtain ⟨error, -, rfl⟩ := List.mem_map.1 hx
      exact ⟨rfl, show Code.parser.text ≠ "E9002" by decide, _, rfl, rfl⟩
    · exact hnode _ hx
  · exact hnode _ hx

/-! ### Places on a terminal -/

namespace Terminal

variable {d : Diagnostic} {label : Label} {path source : String}

/-- A terminal with the source at hand shows a primary label at the place of its diagnostic. -/
theorem label_withSource (fits : source.utf8ByteSize ≤ maxWord) (t : Terminal)
    (only : d.labels = [label]) (primary : label.isPrimary = true) :
    (t.withSource path source).label label =
      [.plain ("  --> " ++ s!"{path}:{(d.place source).line}:{(d.place source).column}" ++ ": "),
        .coloured .red label.message, .plain "\n"] := by
  rw [← Text.byteLength_toList] at fits
  have hspan : d.primarySpan? = some label.span := by
    simp [Diagnostic.primarySpan?, only, primary]
  have hplace : (LineTable.ofSource source.toList).position source.toList label.span.start
      = d.place source := by
    rw [LineTable.position_ofSource fits, Diagnostic.place, hspan, Option.getD_some]
  rw [Terminal.label, primary]
  simp only [withSource, location, hplace]
  rfl

/-- **What a terminal with the source at hand writes for an error of one place:** a heading, then
the place of the error, and the rest. -/
theorem emit_withSource (fits : source.utf8ByteSize ≤ maxWord) (t : Terminal)
    (error : d.severity = .error) (only : d.labels = [label]) (primary : label.isPrimary = true) :
    ∃ rest, (t.withSource path source).emit d
      = (Piece.coloured .red "error").render t.colours
        ++ (Piece.coloured .bold ("[" ++ d.code.text ++ "]")).render t.colours
        ++ (": " ++ d.message ++ "\n")
        ++ ("  --> " ++ s!"{path}:{(d.place source).line}:{(d.place source).column}" ++ ": ")
        ++ (Piece.coloured .red label.message).render t.colours ++ "\n" ++ rest := by
  have hline : (t.withSource path source).label label = _ := label_withSource fits t only primary
  have hshown : (t.withSource path source).colours = t.colours := rfl
  refine ⟨Piece.renderAll t.colours (d.notes.flatMap (trailer "note" .bold)
    ++ d.suggestions.flatMap (trailer "help" .green) ++ [.plain "\n"]), ?_⟩
  rw [emit, diagnostic, only, List.flatMap_singleton, hline, error, hshown]
  simp only [Piece.renderAll, List.map_append, List.map_cons, List.map_nil, String.join_append,
    String.join_cons, String.join_nil, Piece.render_plain, String.append_empty,
    String.append_assoc]
  rfl

/-- Errors are written one after another, and the summary counts them all and no warning. -/
theorem emitAll_errors {ds : List Diagnostic} (t : Terminal)
    (errors : ∀ x ∈ ds, x.severity = .error) :
    t.emitAll ds = String.join (ds.map t.emit) ++ t.emitSummary ds.length 0 := by
  have herrors : ds.countP (fun x => x.severity = .error) = ds.length :=
    List.countP_eq_length.2 fun x hx => decide_eq_true (errors x hx)
  have hwarnings : ds.countP (fun x => x.severity = .warning) = 0 :=
    List.countP_eq_zero.2 fun x hx => by simp [errors x hx]
  rw [emitAll_eq, herrors, hwarnings]

end Terminal

/-! ### Reports -/

namespace Document

/-- A queue that holds nothing takes all if it has no limit, and otherwise as many as its limit
says. -/
theorem length_taken_lt_iff {config : Queue.Config} {ds : List Diagnostic} :
    (Queue.taken config 0 ds).length < ds.length
      ↔ 0 < config.errorLimit ∧ config.errorLimit < ds.length := by
  unfold Queue.taken
  split
  · omega
  · rw [List.length_take]
    omega

/-- **A report is what is collected, cut off at the limit and put in order.**  Let the forest of a
document have a history, the root exist, and the source be shorter than the largest offset; and let
repeated errors be kept.  Of what is collected the report gives as many as the limit says, or all
if the limit is zero, in the order of their places in the source if it is to sort, those at one
place in the order in which they were collected; and one more diagnostic exactly if there is a
limit and more than that was collected: an error E9002, which names the limit.  Each diagnostic has
one label, and what a terminal with the source at hand writes for it starts with a heading and the
place by which the diagnostic was sorted. -/
theorem report_of_history {d : Document} {config : Queue.Config} (grown : d.forest.Grown)
    (known : d.forest.contains d.root) (short : d.source.utf8ByteSize < maxWord)
    (repeated : config.deduplicate = false) :
    ∃ collected kept given last, d.collect = .ok collected
      ∧ kept = (if config.errorLimit = 0 then collected else collected.take config.errorLimit)
      ∧ d.report config = .ok (given ++ last)
      ∧ (if config.sort then StablySorted (Diagnostic.place d.source) kept given else given = kept)
      ∧ last = (if 0 < config.errorLimit ∧ config.errorLimit < collected.length then
          [Diagnostic.tooMany config.errorLimit
            ((given.getLast?.bind Diagnostic.primarySpan?).getD Span.none)]
        else [])
      ∧ (∀ x ∈ given, x.severity = .error ∧ x.code.text ≠ "E9002")
      ∧ (∀ x ∈ last, x.severity = .error ∧ x.code.text = "E9002"
        ∧ x.message = s!"aborting after {config.errorLimit} errors")
      ∧ ∀ (t : Terminal) (path : String),
        let shown := t.withSource path d.source
        shown.emitAll (given ++ last) = String.join ((given ++ last).map shown.emit)
            ++ shown.emitSummary (given ++ last).length 0
          ∧ ∀ x ∈ given ++ last, ∃ label rest, x.labels = [label] ∧ label.isPrimary = true
            ∧ shown.emit x
              = (Piece.coloured .red "error").render t.colours
                ++ (Piece.coloured .bold ("[" ++ x.code.text ++ "]")).render t.colours
                ++ (": " ++ x.message ++ "\n")
                ++ ("  --> "
                  ++ s!"{path}:{(x.place d.source).line}:{(x.place d.source).column}" ++ ": ")
                ++ (Piece.coloured .red label.message).render t.colours ++ "\n" ++ rest := by
  have tree := grown.treelike
  have hroot := Forest.contains_iff.1 known
  have fits := Nat.le_of_lt short
  obtain ⟨-, collected, -, hcollected, -⟩ := collect_of_history grown known
  have hall : ∀ x ∈ collected, x.severity = .error ∧ x.code.text ≠ "E9002" ∧ x.SinglePlace :=
    fun x hx => tree.singlePlace_of_mem_collect hroot hcollected hx
  obtain ⟨given, last, hflush, hgiven, hlast⟩ :=
    Queue.flush_errors fits (fun x hx => decide_eq_true (hall x hx).1) repeated
  simp only [length_taken_lt_iff] at hlast
  -- what is given out was collected
  have hmem : ∀ x ∈ given, x ∈ collected := by
    intro x hx
    split at hgiven
    · exact Queue.mem_of_mem_taken (hgiven.perm.mem_iff.1 hx)
    · exact Queue.mem_of_mem_taken (hgiven ▸ hx)
  have hnotice : ∀ x ∈ last, ∃ span, x = Diagnostic.tooMany config.errorLimit span := by
    intro x hx
    rw [hlast] at hx
    split at hx
    · exact ⟨_, List.mem_singleton.1 hx⟩
    · cases hx
  have hsingle : ∀ x ∈ given ++ last, x.severity = .error ∧ x.SinglePlace := by
    intro x hx
    rcases List.mem_append.1 hx with hx | hx
    · exact ⟨(hall x (hmem x hx)).1, (hall x (hmem x hx)).2.2⟩
    · obtain ⟨span, rfl⟩ := hnotice x hx
      exact ⟨(Diagnostic.parts_tooMany _ span).2.1, Diagnostic.singlePlace_tooMany _ span⟩
  refine ⟨collected, Queue.taken config 0 collected, given, last, hcollected, rfl, ?_, hgiven,
    hlast, fun x hx => ⟨(hall x (hmem x hx)).1, (hall x (hmem x hx)).2.1⟩, fun x hx => ?_,
    fun t path => ⟨?_, fun x hx => ?_⟩⟩
  · unfold report
    rw [hcollected]
    exact congrArg Except.ok hflush
  · obtain ⟨span, rfl⟩ := hnotice x hx
    obtain ⟨hcode, hseverity, hmessage, -⟩ := Diagnostic.parts_tooMany config.errorLimit span
    exact ⟨hseverity, hcode, hmessage⟩
  · exact Terminal.emitAll_errors _ fun x hx => (hsingle x hx).1
  · obtain ⟨hseverity, label, honly, hprimary⟩ := hsingle x hx
    obtain ⟨rest, hrest⟩ := Terminal.emit_withSource fits t hseverity honly hprimary
    exact ⟨label, rest, honly, hprimary, hrest⟩

/-- The document of three errors with a source of two lines, where the parser fails in the
second. -/
def withErrorsInLines : Document :=
  { withErrors with source := "é\nfn", parseErrors := [⟨"d", ⟨3, 4⟩⟩] }

/-- Two of the three errors are reported, and one more diagnostic says that there were more. -/
theorem report_withErrorsInLines :
    ∃ given last, withErrorsInLines.report ⟨2, false, true⟩ = .ok (given ++ last)
      ∧ given.length = 2 ∧ last.length = 1 := by
  have grown : withErrorsInLines.forest.Grown :=
    ⟨errorsInAndOut, by decide, by rw [withErrorsInLines, withErrors]⟩
  have known : withErrorsInLines.forest.contains withErrorsInLines.root := by decide +kernel
  have short : withErrorsInLines.source.utf8ByteSize < maxWord := by decide
  have count : withErrorsInLines.parseErrors.length + withErrorsInLines.forest.errorCount = 3 := by
    decide +kernel
  have tree := grown.treelike
  have hcount := tree.length_diagnostics (Forest.contains_iff.1 known)
  obtain ⟨collected, kept, given, last, hcollected, hkept, hreport, hgiven, hlast, -⟩ :=
    report_of_history grown known short (show (⟨2, false, true⟩ : Queue.Config).deduplicate = false
      from rfl)
  have hlength : collected.length = 3 := by
    rw [tree.collect_eq (Forest.contains_iff.1 known)] at hcollected
    cases hcollected
    rw [List.length_append, List.length_append, List.length_map]
    omega
  refine ⟨given, last, hreport, ?_, ?_⟩
  · rw [hgiven.perm.length_eq, hkept, if_neg (by decide), List.length_take, hlength]
    rfl
  · rw [hlast, if_pos (by rw [hlength]; decide)]
    rfl

end Document

end SyntaxForest
