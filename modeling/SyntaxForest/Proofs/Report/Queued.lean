/-
**Queues that do not look for repeats.**

A queue that is not asked to turn repeats away takes the errors that are offered to it, in order,
until there are as many as it may hold, and notes that there were more.  Which errors are given out
is decided by the order in which they came; in which order is decided by their positions, and
errors at one position stay in the order in which they came.

Main definitions:

* `StablySorted` — a list in the order of a key, otherwise in the order of another list;
* `Diagnostic.place` — where a diagnostic is in a source;
* `Queue.taken` — the errors that a queue takes among those that are offered to it.

Main results:

* `stablySorted_mergeSort` — sorting by a key is stable;
* `Queue.enqueue_errors` — **what is queued after errors are offered**;
* `Queue.flush_errors` — **what is given out then.**
-/

import SyntaxForest.Proofs.Source.Positions
import SyntaxForest.Report.Collection

set_option relaxedAutoImplicit false
set_option autoImplicit false

namespace SyntaxForest

/-! ### The order of positions -/

namespace Position

theorem le_iff {a b : Position} :
    a.le b = true ↔ a.line < b.line ∨ a.line = b.line ∧ a.column ≤ b.column := by
  simp [le]

theorem le_trans {a b c : Position} (h : a.le b = true) (h' : b.le c = true) : a.le c = true := by
  rw [le_iff] at *
  omega

theorem le_total (a b : Position) : (a.le b || b.le a) = true := by
  rw [Bool.or_eq_true, le_iff, le_iff]
  omega

theorem le_refl (a : Position) : a.le a = true := le_iff.2 (Or.inr ⟨rfl, Nat.le_refl _⟩)

end Position

section Sorted

variable {α : Type}

/-- A list in the order of a key; what has the same key stands in it as it stands in another
list. -/
structure StablySorted (key : α → Position) (given sorted : List α) : Prop where
  perm : sorted.Perm given
  ordered : sorted.Pairwise fun a b => (key a).le (key b) = true
  /-- What has the same key keeps its order. -/
  stable : ∀ position, (sorted.filter fun a => key a = position)
    = given.filter fun a => key a = position

/-- Sorting by a key is stable. -/
theorem stablySorted_mergeSort (key : α → Position) (given : List α) :
    StablySorted key given (given.mergeSort fun a b => (key a).le (key b)) := by
  have htrans : ∀ a b c : α, (key a).le (key b) = true → (key b).le (key c) = true →
      (key a).le (key c) = true := fun a b c => Position.le_trans
  have htotal : ∀ a b : α, ((key a).le (key b) || (key b).le (key a)) = true :=
    fun a b => Position.le_total _ _
  have hperm := List.mergeSort_perm given fun a b => (key a).le (key b)
  refine ⟨hperm, List.pairwise_mergeSort htrans htotal given, fun position => ?_⟩
  -- what has one key is sorted already, so it is a sublist of the sorted list
  have hsame : (given.filter fun a => key a = position).Pairwise
      fun a b => (key a).le (key b) = true := by
    refine List.pairwise_of_forall_mem_list fun a ha b hb => ?_
    rw [of_decide_eq_true (List.mem_filter.1 ha).2, of_decide_eq_true (List.mem_filter.1 hb).2]
    exact Position.le_refl position
  have hsub := (List.sublist_mergeSort htrans htotal hsame List.filter_sublist).filter
    fun a => decide (key a = position)
  rw [List.filter_filter] at hsub
  simp only [Bool.and_self] at hsub
  exact (hsub.eq_of_length (hperm.filter _).length_eq.symm).symm

end Sorted

/-! ### Too many errors -/

/-- **What stands for the errors that were turned away:** an error E9002 that names the limit. -/
theorem Diagnostic.parts_tooMany (limit : Nat) (span : Span) :
    (tooMany limit span).code.text = "E9002"
      ∧ (tooMany limit span).severity = .error
      ∧ (tooMany limit span).message = s!"aborting after {limit} errors"
      ∧ (tooMany limit span).labels = [⟨span, "error limit reached here", true⟩]
      ∧ (tooMany limit span).notes = ["raise `DiagnosticConfig::error_limit` to see more"]
      ∧ (tooMany limit span).suggestions = [] :=
  ⟨rfl, rfl, rfl, rfl, rfl, rfl⟩

/-! ### Offering errors -/

/-- Where a diagnostic is in a source; one without a primary label is at its start. -/
def Diagnostic.place (source : String) (d : Diagnostic) : Position :=
  Position.after (Text.before source.toList (d.primarySpan?.getD Span.none).start)

namespace Queue

variable {q : Queue} {d : Diagnostic} {ds : List Diagnostic} {source : String}

/-- The table of a source places a diagnostic where it is. -/
theorem positionInTable_eq (fits : source.utf8ByteSize ≤ maxWord) (d : Diagnostic) :
    positionInTable source (LineTable.ofSource source.toList) d = d.place source := by
  rw [← Text.byteLength_toList] at fits
  unfold positionInTable Diagnostic.place
  cases d.primarySpan? with
  | none =>
      rw [Option.getD_none, Span.none, Text.before_zero]
      rfl
  | some span => exact LineTable.position_ofSource fits span.start

/-- The errors that a queue takes, which holds some already, among those that are offered to it. -/
def taken (config : Config) (held : Nat) (ds : List Diagnostic) : List Diagnostic :=
  if config.errorLimit = 0 then ds else ds.take (config.errorLimit - held)

theorem mem_of_mem_taken {config : Config} {held : Nat} {d : Diagnostic}
    (hd : d ∈ taken config held ds) : d ∈ ds := by
  unfold taken at hd
  split at hd
  · exact hd
  · exact List.mem_of_mem_take hd

theorem limitReached_iff :
    q.limitReached = true ↔ q.config.errorLimit ≠ 0 ∧ q.config.errorLimit ≤ q.errorCount := by
  simp [limitReached, Nat.pos_iff_ne_zero]

theorem taken_of_limitReached (full : q.limitReached = true) (ds : List Diagnostic) :
    taken q.config q.errorCount ds = [] := by
  obtain ⟨hlimit, hle⟩ := limitReached_iff.1 full
  rw [taken, if_neg hlimit, Nat.sub_eq_zero_of_le hle, List.take_zero]

/-- A queue that is not full takes the next error. -/
theorem taken_cons (room : q.limitReached = false) (d : Diagnostic) (ds : List Diagnostic) :
    taken q.config q.errorCount (d :: ds) = d :: taken q.config (q.errorCount + 1) ds := by
  unfold taken
  split
  · rfl
  · next hlimit =>
      have hlt : q.errorCount < q.config.errorLimit := by
        refine Nat.lt_of_not_le fun hle => ?_
        rw [limitReached_iff.2 ⟨hlimit, hle⟩] at room
        cases room
      obtain ⟨more, hmore⟩ : ∃ more, q.config.errorLimit - q.errorCount = more + 1 :=
        ⟨q.config.errorLimit - q.errorCount - 1, by omega⟩
      rw [hmore, List.take_succ_cons, Nat.sub_add_eq, hmore, Nat.add_sub_cancel]

/-- An error is turned away when the queue is full, and taken otherwise. -/
theorem add_error (error : d.isError = true) (keeps : q.config.deduplicate = false)
    (position : Position) : (q.add d position).2 =
      if q.limitReached then { q with overflowed := true }
      else { q with entries := q.entries.push ⟨d, position⟩, errorCount := q.errorCount + 1 } := by
  unfold add
  rw [error, keeps]
  cases q.limitReached <;> rfl

/-- **What is queued after errors are offered:** those that are taken, at their places; and it is
noted if there were more. -/
theorem enqueue_errors (fits : source.utf8ByteSize ≤ maxWord)
    (errors : ∀ d ∈ ds, d.isError = true) (keeps : q.config.deduplicate = false) :
    Document.enqueue source (LineTable.ofSource source.toList) q ds =
      { config := q.config
        entries := q.entries
          ++ (taken q.config q.errorCount ds).map fun d => (⟨d, d.place source⟩ : Entry)
        errorCount := q.errorCount + (taken q.config q.errorCount ds).length
        overflowed := q.overflowed
          || decide ((taken q.config q.errorCount ds).length < ds.length) } := by
  induction ds generalizing q with
  | nil =>
      have hnone : taken q.config q.errorCount [] = [] := by
        unfold taken
        split
        · rfl
        · exact List.take_nil
      rw [hnone]
      simp [Document.enqueue]
  | cons d rest ih =>
      have hadd := add_error (errors d List.mem_cons_self) keeps (d.place source)
      have hrest : ∀ d ∈ rest, d.isError = true := fun x hx => errors x (List.mem_cons_of_mem d hx)
      have hstep : Document.enqueue source (LineTable.ofSource source.toList) q (d :: rest)
          = Document.enqueue source (LineTable.ofSource source.toList)
            (q.add d (d.place source)).2 rest := by
        rw [← positionInTable_eq fits d]
        rfl
      rw [hstep, hadd]
      cases hfull : q.limitReached with
      | true =>
          -- a full queue stays full, so from here on nothing is taken
          have hih := ih (q := { q with overflowed := true }) hrest keeps
          have hfull' : Queue.limitReached { q with overflowed := true } = true := hfull
          rw [if_pos rfl, hih, taken_of_limitReached hfull' rest,
            taken_of_limitReached hfull (d :: rest)]
          simp
      | false =>
          have hih := ih (q := { q with
            entries := q.entries.push ⟨d, d.place source⟩, errorCount := q.errorCount + 1 })
            hrest keeps
          rw [if_neg Bool.false_ne_true, hih, taken_cons hfull]
          simp [Nat.add_assoc, Nat.add_comm 1]

/-- What is queued with its places is given out in the order of these. -/
theorem ordered_eq {kept : List Diagnostic}
    (placed : q.entries = (kept.map fun d => (⟨d, d.place source⟩ : Entry)).toArray) :
    q.ordered = if q.config.sort then
      kept.mergeSort fun a b => (a.place source).le (b.place source) else kept := by
  have hdiagnostics : q.diagnostics = kept := by
    rw [diagnostics, placed, List.map_map]
    exact List.map_id kept
  rw [ordered, hdiagnostics]
  split
  · rw [List.map_mergeSort (s := fun a b => (a.place source).le (b.place source))]
    · exact congrArg (List.mergeSort · _) hdiagnostics
    · intro a ha b hb
      rw [placed] at ha hb
      obtain ⟨-, -, rfl⟩ := List.mem_map.1 ha
      obtain ⟨-, -, rfl⟩ := List.mem_map.1 hb
      rfl
  · rfl

/-- **What is given out after errors are offered** to an empty queue: those that it takes, in the
order of their places if it sorts, and then one that says so if there were more. -/
theorem flush_errors {config : Config} (fits : source.utf8ByteSize ≤ maxWord)
    (errors : ∀ d ∈ ds, d.isError = true) (keeps : config.deduplicate = false) :
    ∃ given last,
      (Document.enqueue source (LineTable.ofSource source.toList) (new config) ds).flush.1
        = given ++ last
      ∧ (if config.sort then StablySorted (Diagnostic.place source) (taken config 0 ds) given
        else given = taken config 0 ds)
      ∧ last = if (taken config 0 ds).length < ds.length then
          [Diagnostic.tooMany config.errorLimit
            ((given.getLast?.bind Diagnostic.primarySpan?).getD Span.none)]
        else [] := by
  have hqueue := enqueue_errors (q := new config) fits errors keeps
  generalize Document.enqueue source (LineTable.ofSource source.toList) (new config) ds = q
    at hqueue
  have hplaced : q.entries
      = ((taken config 0 ds).map fun d => (⟨d, d.place source⟩ : Entry)).toArray := by
    rw [hqueue]
    simp [new]
  have hconfig : q.config = config := by rw [hqueue]; rfl
  have hoverflowed : q.overflowed = decide ((taken config 0 ds).length < ds.length) := by
    rw [hqueue]
    exact Bool.false_or _
  refine ⟨q.ordered, _, rfl, ?_, ?_⟩
  · rw [ordered_eq hplaced, hconfig]
    cases config.sort
    · rfl
    · exact stablySorted_mergeSort _ _
  · simp only [hoverflowed, hconfig, decide_eq_true_eq]

end Queue

end SyntaxForest
