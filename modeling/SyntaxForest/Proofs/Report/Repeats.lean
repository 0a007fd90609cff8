/-
**What becomes of repeated errors.**

A queue that looks for repeats turns an error away if a diagnostic that is alike is queued, whatever
the severity of that diagnostic.  So of those that are alike the first one to come is always kept,
and it is the only one of them that can be an error: after a warning, the errors that are alike it
are lost, and what is given out for them is the warning.

This is said of queues that are not full, since a full queue turns every error away.

Main definitions:

* `Queue.firstAlike` — the first of some diagnostics that is alike another one;
* `Queue.Sifted` — a record of which the firsts are accepted, and no later errors.

Main results:

* `Queue.add_eq_false_iff` — **a queue that is not full turns away errors that repeat a queued
  diagnostic**, and nothing else;
* `Queue.Sifted.perform` — a request that finds the queue not full keeps a record sifted;
* `Queue.sifted_runAll` — so the record of a run is sifted if no call of it came to a full queue;
* `Queue.repeats_of_run` — **an error that is offered is given out, or one alike, or a warning that
  came first.**
-/

import SyntaxForest.Proofs.Report.Calls

set_option relaxedAutoImplicit false
set_option autoImplicit false

namespace SyntaxForest

namespace Queue

variable {q : Queue} {config : Config} {record : List Call} {request : Request}
  {entries : List Entry} {entry held other : Entry}

/-! ### Diagnostics that are alike -/

instance (a b : Entry) : Decidable (a.Alike b) := inferInstanceAs (Decidable (_ ∧ _ ∧ _))

theorem Entry.Alike.symm (h : held.Alike entry) : entry.Alike held :=
  ⟨h.1.symm, h.2.1.symm, h.2.2.symm⟩

theorem Entry.Alike.trans (h : held.Alike entry) (h' : entry.Alike other) : held.Alike other :=
  ⟨h.1.trans h'.1, h.2.1.trans h'.2.1, h.2.2.trans h'.2.2⟩

/-- The first of some diagnostics that is alike another one. -/
def firstAlike (entries : List Entry) (entry : Entry) : Option Entry :=
  entries.find? fun held => held.Alike entry

theorem firstAlike_append (entries more : List Entry) (entry : Entry) :
    firstAlike (entries ++ more) entry
      = (firstAlike entries entry).or (firstAlike more entry) :=
  List.find?_append

theorem alike_of_firstAlike (h : firstAlike entries entry = some held) : held.Alike entry := by
  simpa using List.find?_some h

theorem exists_firstAlike (hheld : held ∈ entries) (h : held.Alike entry) :
    ∃ first, firstAlike entries entry = some first :=
  Option.isSome_iff_exists.1 (List.find?_isSome.2 ⟨held, hheld, decide_eq_true h⟩)

/-- Where each error is unlike all that stand before it, an error is the first of those that are
alike. -/
theorem firstAlike_of_error
    (distinct : entries.Pairwise fun a b => b.diagnostic.isError = true → ¬ a.Alike b)
    (hheld : held ∈ entries) (error : held.diagnostic.isError = true) (h : held.Alike entry) :
    firstAlike entries entry = some held := by
  induction entries with
  | nil => cases hheld
  | cons first rest ih =>
      obtain ⟨hfirst, hrest⟩ := List.pairwise_cons.1 distinct
      rcases List.mem_cons.1 hheld with rfl | hheld
      · exact List.find?_cons_of_pos (decide_eq_true h)
      · have hunlike : ¬ first.Alike entry :=
          fun halike => hfirst held hheld error (halike.trans h.symm)
        rw [firstAlike, List.find?_cons_of_neg (by simpa using hunlike)]
        exact ih hrest hheld

/-! ### Offering one diagnostic -/

/-- **A queue that is not full turns away errors that repeat a queued diagnostic**, an error or a
warning, and nothing else. -/
theorem add_eq_false_iff (dedup : q.config.deduplicate = true) (room : q.limitReached = false)
    (d : Diagnostic) (position : Position) : (q.add d position).1 = false ↔
      d.isError = true ∧ ∃ held ∈ q.entries.toList, held.Alike ⟨d, position⟩ := by
  rw [← @repeats_iff q ⟨d, position⟩, add, room, dedup, Bool.and_false, Bool.true_and,
    if_neg Bool.false_ne_true]
  cases q.repeats d position.line <;> simp

/-! ### Sifted records -/

/-- A record that was sifted: the first of those that are alike was accepted, and no error that is
alike one before it. -/
structure Sifted (record : List Call) : Prop where
  /-- The first that came is the first that was accepted. -/
  first : ∀ entry, firstAlike (accepted record) entry = firstAlike (offered record) entry
  distinct : (accepted record).Pairwise fun a b => b.diagnostic.isError = true → ¬ a.Alike b

theorem sifted_nil : Sifted [] := ⟨fun _ => rfl, List.Pairwise.nil⟩

/-- A repeated error that is turned away was not the first. -/
theorem Sifted.turnedAway (sifted : Sifted record) (offers : request.offer? = some entry)
    (answers : Call.answer ⟨q, request⟩ = .taken false) (hheld : held ∈ accepted record)
    (h : held.Alike entry) : Sifted (record ++ [⟨q, request⟩]) := by
  have haccepted : accepted (record ++ [⟨q, request⟩]) = accepted record :=
    accepted_concat_of_ne (by rw [answers]; decide)
  refine ⟨fun any => ?_, by rw [haccepted]; exact sifted.distinct⟩
  rw [haccepted, offered_concat offers, firstAlike_append, ← sifted.first any]
  by_cases halike : entry.Alike any
  · obtain ⟨first, hfirst⟩ := exists_firstAlike hheld (h.trans halike)
    rw [hfirst, Option.some_or]
  · rw [firstAlike, firstAlike, List.find?_cons_of_neg (by simpa using halike), List.find?_nil,
      Option.or_none]

/-- What is taken is new if it is an error. -/
theorem Sifted.taken (sifted : Sifted record) (offers : request.offer? = some entry)
    (answers : Call.answer ⟨q, request⟩ = .taken true)
    (new : entry.diagnostic.isError = true → ∀ held ∈ accepted record, ¬ held.Alike entry) :
    Sifted (record ++ [⟨q, request⟩]) := by
  refine ⟨fun any => ?_, ?_⟩
  · rw [accepted_concat offers answers, offered_concat offers, firstAlike_append,
      firstAlike_append, sifted.first any]
  · rw [accepted_concat offers answers]
    refine List.pairwise_append.2 ⟨sifted.distinct, List.pairwise_singleton _ _, ?_⟩
    intro held hheld last hlast error
    obtain rfl := List.mem_singleton.1 hlast
    exact new error held hheld

theorem Sifted.looked (sifted : Sifted record) (offers : request.offer? = none)
    (answers : Call.answer ⟨q, request⟩ ≠ .taken true) :
    Sifted (record ++ [⟨q, request⟩]) := by
  have haccepted : accepted (record ++ [⟨q, request⟩]) = accepted record :=
    accepted_concat_of_ne answers
  refine ⟨fun any => ?_, by rw [haccepted]; exact sifted.distinct⟩
  rw [haccepted, offered_concat_of_none offers, sifted.first any]

/-- **A request that finds the queue not full keeps a record sifted.** -/
theorem Sifted.perform (sifted : Sifted record) (accounts : Accounts config record q)
    (dedup : config.deduplicate = true) (room : q.limitReached = false)
    (keeps : request.isFlush = false) : Sifted (record ++ [⟨q, request⟩]) := by
  have hdedup : q.config.deduplicate = true := accounts.settings ▸ dedup
  rcases perform_cases q request keeps with ⟨entry, hoffer, -, hwhy, hperform⟩
    | ⟨entry, hoffer, hwhy, hperform⟩ | ⟨hoffer, hanswer, -⟩
  · obtain ⟨-, held, hheld, halike⟩ := hwhy room
    rw [accounts.entries] at hheld
    exact sifted.turnedAway hoffer (congrArg Prod.fst hperform) hheld halike
  · refine sifted.taken hoffer (congrArg Prod.fst hperform) fun error => ?_
    rw [← accounts.entries]
    exact (hwhy error).2 hdedup
  · exact sifted.looked hoffer hanswer

/-- No call since the queue last gave out what it held came to a full queue. -/
def NeverFull (record : List Call) : Prop := ∀ call ∈ record, call.queue.limitReached = false

/-- **A run is sifted if no call of it came to a full queue.** -/
theorem sifted_runAll (dedup : config.deduplicate = true) (requests : List Request)
    (accounts : Accounts config (sinceFlush record) q)
    (sifted : NeverFull (sinceFlush record) → Sifted (sinceFlush record)) :
    NeverFull (sinceFlush (record ++ q.calls requests)) →
      Sifted (sinceFlush (record ++ q.calls requests)) := by
  induction requests generalizing q record with
  | nil =>
      rw [calls, List.append_nil]
      exact sifted
  | cons request rest ih =>
      have step : NeverFull (sinceFlush (record ++ [⟨q, request⟩])) →
          Sifted (sinceFlush (record ++ [⟨q, request⟩])) := by
        rw [sinceFlush_append]
        cases hflush : request.isFlush with
        | true => exact fun _ => sifted_nil
        | false =>
            intro room
            have hroom := List.forall_mem_append.1 room
            exact (sifted hroom.1).perform accounts dedup (hroom.2 _ List.mem_cons_self) hflush
      have hrest := ih (accounts.perform request) step
      rwa [List.append_assoc] at hrest

/-! ### What is given out -/

/-- What is given out in order is what was accepted. -/
theorem InOrder.perm {kept sorted : List Entry} (h : InOrder config kept sorted) :
    sorted.Perm kept := by
  unfold InOrder at h
  split at h
  · exact h.perm
  · exact h ▸ List.Perm.refl _

/-- What is given out if no call came to a full queue is what was accepted. -/
theorem Accounts.flush_of_neverFull (accounts : Accounts config record q)
    (room : NeverFull record) : ∃ given : List Entry,
      (q.perform .flush).1 = .given (given.map (·.diagnostic)) ∧ given.Perm (accepted record) := by
  obtain ⟨given, last, hflush, horder, hlast, -⟩ := accounts.flush
  have hnone : record.any Call.foundFull = false := by
    rw [List.any_eq_false]
    intro call hcall hfull
    rw [Call.foundFull, room call hcall, Bool.and_false] at hfull
    cases hfull
  rw [hlast, hnone, if_neg Bool.false_ne_true, List.append_nil] at hflush
  exact ⟨given, hflush, horder.perm⟩

/-- **What becomes of the errors that are offered to a queue that looks for repeats.**  While it is
not full, it turns away exactly the errors that are alike a queued diagnostic, which may be a
warning.  If no call of a run since the queue last gave out what it held came to a full queue, then
it gives out what it accepted, and for each diagnostic that was offered there is one alike, and an
error among these exactly if the first that came was one. -/
theorem repeats_of_run (config : Config) (dedup : config.deduplicate = true) :
    (∀ (q : Queue) (d : Diagnostic) (position : Position), q.config = config →
      q.limitReached = false → ((q.add d position).1 = false ↔
        d.isError = true ∧ ∃ held ∈ q.entries.toList, held.Alike ⟨d, position⟩))
    ∧ ∀ requests : List Request,
      let q := (new config).runAll requests
      let record := sinceFlush ((new config).calls requests)
      NeverFull record → ∃ given : List Entry,
        (q.perform .flush).1 = .given (given.map (·.diagnostic))
        ∧ given.Perm (accepted record)
        ∧ ∀ entry ∈ offered record,
          (∃ held ∈ given, held.Alike entry)
          ∧ ((∃ held ∈ given, held.Alike entry ∧ held.diagnostic.isError = true) ↔
            ∃ first, firstAlike (offered record) entry = some first
              ∧ first.diagnostic.isError = true) := by
  refine ⟨fun q d position settings room => ?_, fun requests => ?_⟩
  · subst settings
    exact add_eq_false_iff dedup room d position
  · intro q record room
    have haccounts : Accounts config record q := accounts_runAll requests (accounts_start config)
    have hsifted : Sifted record :=
      sifted_runAll dedup requests (accounts_start config) (fun _ => sifted_nil) room
    obtain ⟨given, hflush, hperm⟩ := haccounts.flush_of_neverFull room
    refine ⟨given, hflush, hperm, fun entry hentry => ?_⟩
    -- of those that are alike the first that came was accepted, and so it is given out
    obtain ⟨first, hfirst⟩ := exists_firstAlike hentry ⟨rfl, rfl, rfl⟩
    have haccepted : firstAlike (accepted record) entry = some first :=
      (hsifted.first entry).trans hfirst
    have hgiven : first ∈ given := hperm.mem_iff.2 (List.mem_of_find?_eq_some haccepted)
    refine ⟨⟨first, hgiven, alike_of_firstAlike hfirst⟩, ?_, ?_⟩
    · rintro ⟨held, hheld, halike, herror⟩
      have hheld' := firstAlike_of_error hsifted.distinct (hperm.mem_iff.1 hheld) herror halike
      exact ⟨held, (hsifted.first entry).symm.trans hheld', herror⟩
    · rintro ⟨other, hother, herror⟩
      obtain rfl : first = other := Option.some.inj (hfirst.symm.trans hother)
      exact ⟨first, hgiven, alike_of_firstAlike hfirst, herror⟩

/-- A diagnostic with a message. -/
def plain (severity : Severity) : Diagnostic :=
  (Diagnostic.blank severity .semantic).withMessage "same"

@[simp] theorem isError_plain (severity : Severity) :
    (plain severity).isError = decide (severity = .error) := rfl

/-- Offers an error twice in a line, and a warning. -/
def twice : List Request :=
  [.add (plain .error) ⟨1, 1⟩, .add (plain .error) ⟨1, 4⟩, .add (plain .warning) ⟨1, 2⟩]

/-- An error that comes twice in a line, and then as a warning, is given out as an error. -/
theorem repeats_of_twice :
    NeverFull (sinceFlush ((new ⟨2, true, true⟩).calls twice))
      ∧ ∃ given : List Entry, (((new ⟨2, true, true⟩).runAll twice).perform .flush).1
          = .given (given.map (·.diagnostic))
        ∧ ∃ held ∈ given, held.Alike ⟨plain .error, ⟨1, 4⟩⟩ ∧ held.diagnostic.isError = true := by
  have room : NeverFull (sinceFlush ((new ⟨2, true, true⟩).calls twice)) := by
    simp [NeverFull, sinceFlush, calls, twice, perform, add, new, limitReached, repeats,
      Request.isFlush]
  have hoffered : offered (sinceFlush ((new ⟨2, true, true⟩).calls twice))
      = [⟨plain .error, ⟨1, 1⟩⟩, ⟨plain .error, ⟨1, 4⟩⟩, ⟨plain .warning, ⟨1, 2⟩⟩] := rfl
  obtain ⟨given, hflush, -, hgiven⟩ := (repeats_of_run ⟨2, true, true⟩ rfl).2 twice room
  rw [hoffered] at hgiven
  obtain ⟨-, herror⟩ := hgiven ⟨plain .error, ⟨1, 4⟩⟩ (by simp)
  refine ⟨room, given, hflush, herror.2 ⟨⟨plain .error, ⟨1, 1⟩⟩, rfl, rfl⟩⟩

/-- A queue with a warning, which looks for repeats. -/
def onlyWarning : Queue := ⟨⟨0, true, true⟩, #[⟨plain .warning, ⟨1, 1⟩⟩], 0, false⟩

/-- After a warning an error in the same line is lost that has its code and message: no error is
queued, and the warning is all that is given out. -/
theorem add_after_warning :
    (new ⟨0, true, true⟩).runAll [.add (plain .warning) ⟨1, 1⟩] = onlyWarning
      ∧ onlyWarning.limitReached = false
      ∧ onlyWarning.add (plain .error) ⟨1, 4⟩ = (false, onlyWarning)
      ∧ onlyWarning.flush.1 = [plain .warning] := by
  refine ⟨?_, rfl, ?_, ?_⟩
  · simp [runAll, perform, add, new, limitReached, repeats, onlyWarning]
  · simp [add, limitReached, repeats, onlyWarning, plain, Diagnostic.isError,
      Diagnostic.withMessage, Diagnostic.blank]
  · simp [flush, ordered, onlyWarning]

end Queue

end SyntaxForest
