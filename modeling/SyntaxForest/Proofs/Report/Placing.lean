/-
**Places of queued diagnostics.**

A queue places a diagnostic by reading the source or by a table of its lines.  It makes no
difference which: both answer with the position that is found by counting.  A position is two
numbers, and sorting compares these; what comes out is nevertheless the order of the source, since
of two starts of characters the later one has the later position.

Main definitions:

* `Diagnostic.start` — the offset at which a diagnostic starts;
* `Queue.Request.InSource` — a request that offers only diagnostics that start on a character of
  a source, or at its end.

Main results:

* `Queue.positionInSource_eq` — reading the source places a diagnostic where it is;
* `LineTable.lookups_eq_counted` — **a table and a reader find the counted position**, and a queue
  takes a diagnostic alike with either;
* `Queue.ordered_of_inSource` — what is queued is given out in the order of the starts;
* `Queue.order_of_source` — **positions are in the order of offsets, and so is what a queue gives
  out.**
-/

import SyntaxForest.Proofs.Source.Order
import SyntaxForest.Proofs.Report.Calls

set_option relaxedAutoImplicit false
set_option autoImplicit false

namespace SyntaxForest

open Text

/-! ### Places -/

namespace Queue

variable {source : String} {d : Diagnostic}

/-- Reading a source places a diagnostic where it is. -/
theorem positionInSource_eq (source : String) (d : Diagnostic) :
    positionInSource source d = d.place source := by
  unfold positionInSource Diagnostic.place
  cases d.primarySpan? with
  | none =>
      rw [Option.getD_none, Span.none, before_zero]
      rfl
  | some span => exact Position.scan_eq source.toList span.start

end Queue

/-! ### Reading and looking up -/

/-- **A table and a reader find the counted position.**  Let a source be shorter than the largest
offset.  At every offset, also past the end or inside a character, the table of its lines and the
reader answer with the position that is found by counting; the line that the table finds starts at
or before the offset, and the next one, if there is one, after it.  So a queue finds a diagnostic at
one place by either, and takes it or turns it away alike. -/
theorem LineTable.lookups_eq_counted {source : String} (short : source.utf8ByteSize < maxWord) :
    let table := ofSource source.toList
    (∀ offset, table.position source.toList offset = Position.scan source.toList offset
      ∧ Position.scan source.toList offset = Position.counted source offset
      ∧ table.lineOf offset = (Position.counted source offset).line
      ∧ (∃ start, table.start? (table.lineOf offset) = some start ∧ start ≤ offset)
      ∧ ∀ next, table.start? (table.lineOf offset + 1) = some next → offset < next)
    ∧ ∀ d : Diagnostic, Queue.positionInSource source d = Queue.positionInTable source table d
      ∧ ∀ q : Queue, q.addWithSource d source = q.addWithTable d source table := by
  intro table
  have fits : byteLength source.toList ≤ maxWord := byteLength_toList source ▸ Nat.le_of_lt short
  refine ⟨fun offset => ?_, fun d => ?_⟩
  · obtain ⟨lines, last, hbefore, hlast, hlines⟩ := exists_lines (before source.toList offset)
    have hend := byteLength_before_le source.toList offset
    rw [hbefore, byteLength_append] at hend
    have hscan := Position.scan_eq source.toList offset
    refine ⟨(position_ofSource fits offset).trans hscan.symm,
      hscan.trans (Position.after_before_eq source offset), ?_,
      ⟨byteLength lines, start?_lineOf fits hbefore hlast hlines, by omega⟩,
      fun next hnext => lt_of_start?_lineOf_succ fits hnext⟩
    rw [lineOf_ofSource fits, ← Position.after_before_eq]
    rfl
  · have hplace : Queue.positionInSource source d = Queue.positionInTable source table d :=
      (Queue.positionInSource_eq source d).trans
        (Queue.positionInTable_eq (Nat.le_of_lt short) d).symm
    refine ⟨hplace, fun q => ?_⟩
    rw [Queue.addWithSource, Queue.addWithTable, hplace]

/-- An offset inside the first character of two lines, one in the second line, and one past the end
have their positions by counting, and the table finds them. -/
theorem LineTable.lookups_twoLines :
    (ofSource "é\nfn".toList).position "é\nfn".toList 1 = ⟨1, 1⟩
      ∧ (ofSource "é\nfn".toList).position "é\nfn".toList 4 = ⟨2, 2⟩
      ∧ (ofSource "é\nfn".toList).position "é\nfn".toList 9 = ⟨2, 3⟩ := by
  have short : "é\nfn".utf8ByteSize < maxWord := by decide
  obtain ⟨hlookups, -⟩ := lookups_eq_counted short
  refine ⟨?_, ?_, ?_⟩
  · rw [(hlookups 1).1, (hlookups 1).2.1]
    decide +kernel
  · rw [(hlookups 4).1, (hlookups 4).2.1]
    decide +kernel
  · rw [(hlookups 9).1, (hlookups 9).2.1]
    decide +kernel

/-! ### Sorting -/

/-- The offset at which a diagnostic starts. -/
def Diagnostic.start (d : Diagnostic) : Nat := (d.primarySpan?.getD Span.none).start

/-- A diagnostic whose primary label starts on a character of a source, or at its end. -/
def Diagnostic.StartsIn (source : String) (d : Diagnostic) : Prop :=
  ∃ span, d.primarySpan? = some span ∧ IsCut source.toList span.start

/-- Of two diagnostics that start in a source, the one that starts first has the first place. -/
theorem Diagnostic.StartsIn.place_le_place {source : String} {a b : Diagnostic}
    (ha : a.StartsIn source) (hb : b.StartsIn source) :
    (a.place source).le (b.place source) = decide (a.start ≤ b.start) := by
  obtain ⟨span, hspan, hcut⟩ := ha
  obtain ⟨span', hspan', hcut'⟩ := hb
  rw [place, place, start, start, hspan, hspan', Option.getD_some, Option.getD_some,
    ← Position.scan_eq, ← Position.scan_eq, Bool.eq_iff_iff, decide_eq_true_iff]
  exact Position.scan_le_scan_iff hcut hcut'

namespace Queue

variable {source : String} {config : Config} {q : Queue} {requests : List Request}
  {request : Request} {entry : Entry} {call : Call}

/-- A request that offers only diagnostics that start in a source, placed by that source or by the
table of its lines. -/
def Request.InSource (source : String) : Request → Prop
  | .add .. => False
  | .addWithSource d text => text = source ∧ d.StartsIn source
  | .addWithTable d text table =>
      text = source ∧ table = LineTable.ofSource source.toList ∧ d.StartsIn source
  | _ => True

/-- What such a request offers stands at its place. -/
theorem Request.InSource.placed (fits : source.utf8ByteSize ≤ maxWord)
    (inside : request.InSource source) (offers : request.offer? = some entry) :
    entry.diagnostic.StartsIn source ∧ entry.position = entry.diagnostic.place source := by
  cases request with
  | add d position => exact inside.elim
  | addWithSource d text =>
      obtain ⟨rfl, hstarts⟩ := inside
      obtain rfl := Option.some.inj offers
      exact ⟨hstarts, positionInSource_eq text d⟩
  | addWithTable d text table =>
      obtain ⟨rfl, rfl, hstarts⟩ := inside
      obtain rfl := Option.some.inj offers
      exact ⟨hstarts, positionInTable_eq fits d⟩
  | _ => cases offers

/-- A record is made of the requests that came. -/
theorem request_mem_of_mem_calls (h : call ∈ q.calls requests) : call.request ∈ requests := by
  induction requests generalizing q with
  | nil => cases h
  | cons request rest ih =>
      rcases List.mem_cons.1 h with rfl | h
      · exact List.mem_cons_self
      · exact List.mem_cons_of_mem _ (ih h)

/-- What a queue holds was offered to it. -/
theorem exists_offer_of_mem_runAll (held : entry ∈ ((new config).runAll requests).entries.toList) :
    ∃ request ∈ requests, request.offer? = some entry := by
  have haccounts := accounts_runAll requests (accounts_start config)
  rw [haccounts.entries] at held
  obtain ⟨call, hcall, hoffer⟩ := List.mem_filterMap.1 held
  have hrecord := (List.mem_filter.1 hcall).1
  rw [sinceFlush, List.mem_reverse] at hrecord
  have hmem := List.mem_reverse.1 ((List.takeWhile_sublist _).subset hrecord)
  exact ⟨call.request, request_mem_of_mem_calls hmem, hoffer⟩

/-- **What is queued is given out in the order of the starts**, if it starts in the source by which
it was placed. -/
theorem ordered_of_inSource (source : String) (sorts : q.config.sort = true)
    (placed : ∀ entry ∈ q.entries.toList, entry.diagnostic.StartsIn source
      ∧ entry.position = entry.diagnostic.place source) :
    q.ordered = q.diagnostics.mergeSort fun a b => a.start ≤ b.start := by
  rw [ordered, if_pos sorts, diagnostics]
  refine List.map_mergeSort fun a ha b hb => ?_
  obtain ⟨hstarts, hplace⟩ := placed a ha
  obtain ⟨hstarts', hplace'⟩ := placed b hb
  rw [hplace, hplace']
  exact hstarts.place_le_place hstarts'

/-- **Positions are in the order of offsets, and so is what a queue gives out.**  Let a source be
shorter than the largest offset.  A later offset has no earlier position; of two offsets at which a
character starts or the source ends the later one has the later position, so their positions tell
them apart.  A queue that sorts, and is only offered diagnostics that start at such offsets, gives
out what it holds stably sorted by the offsets at which it starts. -/
theorem order_of_source {source : String} (short : source.utf8ByteSize < maxWord) :
    (∀ a b, a ≤ b →
      (Position.scan source.toList a).le (Position.scan source.toList b) = true)
    ∧ (∀ a b, IsCut source.toList a → IsCut source.toList b → a < b →
      (Position.scan source.toList a).Before (Position.scan source.toList b))
    ∧ (∀ a b, IsCut source.toList a → IsCut source.toList b →
      Position.scan source.toList a = Position.scan source.toList b → a = b)
    ∧ ∀ (config : Config) (requests : List Request), config.sort = true →
      (∀ request ∈ requests, request.InSource source) →
      let q := (new config).runAll requests
      let sorted := q.diagnostics.mergeSort fun a b => a.start ≤ b.start
      q.flush.1 = sorted ++ if q.overflowed then
          [Diagnostic.tooMany config.errorLimit
            ((sorted.getLast?.bind Diagnostic.primarySpan?).getD Span.none)]
        else [] := by
  refine ⟨fun a b => Position.scan_le_scan source.toList,
    fun a b cut cut' => Position.scan_before_scan cut cut', fun a b cut cut' heq => ?_,
    fun config requests sorts inside => ?_⟩
  · have hle := (Position.scan_le_scan_iff cut cut').1 (heq ▸ Position.le_refl _)
    have hge := (Position.scan_le_scan_iff cut' cut).1 (heq ▸ Position.le_refl _)
    exact Nat.le_antisymm hle hge
  · intro q sorted
    have hconfig : q.config = config := (accounts_runAll requests (accounts_start config)).settings
    -- in a run from a source every entry has the place of its start
    have hordered : q.ordered = sorted := by
      refine ordered_of_inSource source (hconfig ▸ sorts) fun entry hentry => ?_
      obtain ⟨request, hrequest, hoffer⟩ := exists_offer_of_mem_runAll hentry
      exact (inside request hrequest).placed (Nat.le_of_lt short) hoffer
    rw [flush, hordered, hconfig]

/-- A diagnostic with a label at an offset. -/
def errorAt (offset : Nat) : Diagnostic :=
  (Diagnostic.blank .error .semantic).withLabel ⟨offset, offset⟩ "here"

/-- Of two errors that come in the wrong order, the one at the start of a source of two lines is
given out before the one in its second line. -/
theorem order_of_latecomer :
    ((new .unlimited).runAll [.addWithSource (errorAt 4) "é\nfn",
      .addWithTable (errorAt 0) "é\nfn" (LineTable.ofSource "é\nfn".toList)]).flush.1
      = [errorAt 0, errorAt 4] := by
  have hcuts : (errorAt 4).StartsIn "é\nfn" ∧ (errorAt 0).StartsIn "é\nfn" :=
    ⟨⟨_, rfl, ['é', '\n', 'f'], ['n'], rfl, rfl⟩, ⟨_, rfl, [], _, rfl, rfl⟩⟩
  have hinside : ∀ request ∈ [Request.addWithSource (errorAt 4) "é\nfn",
      .addWithTable (errorAt 0) "é\nfn" (LineTable.ofSource "é\nfn".toList)],
      request.InSource "é\nfn" := by
    intro request hrequest
    rcases List.mem_cons.1 hrequest with rfl | hrequest
    · exact ⟨rfl, hcuts.1⟩
    · obtain rfl := List.mem_singleton.1 hrequest
      exact ⟨rfl, rfl, hcuts.2⟩
  have hqueue : ((new .unlimited).runAll [.addWithSource (errorAt 4) "é\nfn",
      .addWithTable (errorAt 0) "é\nfn" (LineTable.ofSource "é\nfn".toList)]).diagnostics
      = [errorAt 4, errorAt 0] := rfl
  have hsorted : ([errorAt 4, errorAt 0].mergeSort fun a b => a.start ≤ b.start)
      = [errorAt 0, errorAt 4] := by
    simp [List.mergeSort, errorAt, Diagnostic.start, Diagnostic.primarySpan?_withLabel]
  rw [(order_of_source (by decide)).2.2.2 .unlimited _ rfl hinside, hqueue, hsorted]
  rfl

end Queue

end SyntaxForest
