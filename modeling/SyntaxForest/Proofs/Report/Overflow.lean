/-
**What a repeated error changes.**

A queue that looks for repeats turns an error away that is alike what it holds, and one might think
that nothing else comes of it.  But whether a queue is full is asked first, and an error that finds
it full leaves the mark of too many errors, a repeated one too.  Nothing but giving out reads the
mark, and any other error that comes before leaves the same mark; so the repeated error is noticed
exactly if it is the first to find the queue full and the queue gives out before another error
comes.  What is noticed then is one diagnostic more, which says that there were more errors.

Main definitions:

* `Queue.marked` — a queue with the mark of too many errors;
* `Queue.discloses` — requests that take everything out before another error is offered.

Main results:

* `Queue.perform_marked`, `Queue.answers_marked` — until the queue gives out, the mark is not read;
* `Queue.perform_of_full` — what a request does to a full queue;
* `Queue.answers_marked_eq_iff` — **the mark of a full queue is noticed when it is disclosed**;
* `Queue.perform_repeated` — a repeated error leaves at most the mark;
* `Queue.answers_of_repeated` — **when a repeated error is noticed, and how**.
-/

import SyntaxForest.Proofs.Report.Repeats

set_option relaxedAutoImplicit false
set_option autoImplicit false

namespace SyntaxForest

namespace Queue

variable {q : Queue} {request : Request} {requests before later : List Request}
  {entry held : Entry}

/-! ### The mark -/

/-- A queue that notes that there were too many errors. -/
def marked (q : Queue) : Queue := { q with overflowed := true }

@[simp] theorem limitReached_marked (q : Queue) : q.marked.limitReached = q.limitReached := rfl

theorem marked_of_overflowed (h : q.overflowed = true) : q.marked = q := by
  rw [marked, ← h]

theorem add_marked (q : Queue) (d : Diagnostic) (position : Position) :
    q.marked.add d position = ((q.add d position).1, (q.add d position).2.marked) := by
  have hrepeats : q.marked.repeats d position.line = q.repeats d position.line := rfl
  have hconfig : q.marked.config = q.config := rfl
  unfold add
  rw [limitReached_marked, hrepeats, hconfig]
  split
  · rfl
  · split <;> rfl

/-- **Until a queue gives out, the mark is not read.** -/
theorem perform_marked (q : Queue) (keeps : request.isFlush = false) :
    q.marked.perform request = ((q.perform request).1, (q.perform request).2.marked) := by
  cases hoffer : request.offer? with
  | some entry =>
      rw [perform_of_offer hoffer, perform_of_offer hoffer, add_marked]
      rfl
  | none =>
      cases request with
      | peek => rfl
      | limitReached => rfl
      | errorCount => rfl
      | flush => cases keeps
      | _ => cases hoffer

/-! ### Answers one after the other -/

theorem answers_cons (q : Queue) (request : Request) (rest : List Request) :
    q.answers (request :: rest) = (q.perform request).1 :: (q.perform request).2.answers rest :=
  rfl

theorem runAll_cons (q : Queue) (request : Request) (rest : List Request) :
    q.runAll (request :: rest) = (q.perform request).2.runAll rest := rfl

theorem answers_append (q : Queue) (first second : List Request) :
    q.answers (first ++ second) = q.answers first ++ (q.runAll first).answers second := by
  induction first generalizing q with
  | nil => rfl
  | cons request rest ih =>
      rw [List.cons_append, answers_cons, answers_cons, runAll_cons, ih, List.cons_append]

theorem config_perform (q : Queue) (request : Request) :
    (q.perform request).2.config = q.config := by
  cases hflush : request.isFlush with
  | true =>
      cases request with
      | flush => rfl
      | _ => cases hflush
  | false =>
      rcases perform_cases q request hflush with ⟨entry, -, -, -, h⟩ | ⟨entry, -, -, h⟩ | ⟨-, -, h⟩
      all_goals rw [h]

theorem config_runAll (q : Queue) (requests : List Request) :
    (q.runAll requests).config = q.config := by
  induction requests generalizing q with
  | nil => rfl
  | cons request rest ih => rw [runAll_cons, ih, config_perform]

/-- Two queues that differ by the mark answer alike until they give out, and then still differ by
the mark. -/
theorem answers_marked (q : Queue) (keeps : ∀ request ∈ before, request.isFlush = false) :
    q.marked.answers before = q.answers before
      ∧ q.marked.runAll before = (q.runAll before).marked := by
  induction before generalizing q with
  | nil => exact ⟨rfl, rfl⟩
  | cons request rest ih =>
      obtain ⟨hrequest, hrest⟩ := List.forall_mem_cons.1 keeps
      obtain ⟨hanswers, hrun⟩ := ih (q.perform request).2 hrest
      rw [answers_cons, answers_cons, runAll_cons, runAll_cons, perform_marked q hrequest]
      exact ⟨by rw [hanswers], hrun⟩

/-! ### When the mark is noticed -/

/-- A request that offers an error. -/
def Request.offersError (request : Request) : Bool :=
  request.offer?.any fun entry => entry.diagnostic.isError

/-- Requests that take everything out before another error is offered. -/
def discloses : List Request → Bool
  | [] => false
  | request :: rest => request.isFlush || (!request.offersError && discloses rest)

/-- **A full queue stays full.**  An error leaves the mark and nothing else, and whatever else is
asked of the queue does not leave it. -/
theorem perform_of_full (full : q.limitReached = true) (keeps : request.isFlush = false) :
    (q.perform request).2.limitReached = true
      ∧ if request.offersError then (q.perform request).2 = q.marked
        else (q.perform request).2.overflowed = q.overflowed := by
  rw [Request.offersError]
  rcases perform_cases q request keeps with ⟨entry, hoffer, herror, -, h⟩
    | ⟨entry, hoffer, hwhy, h⟩ | ⟨hoffer, -, h⟩
  · rw [h, hoffer, Option.any_some, herror, if_pos rfl, full, Bool.or_true]
    exact ⟨full, rfl⟩
  · have hwarning : entry.diagnostic.isError = false := by
      rw [Bool.eq_false_iff]
      intro herror
      rw [(hwhy herror).1] at full
      cases full
    rw [h, hoffer, Option.any_some, hwarning, if_neg Bool.false_ne_true]
    exact ⟨full, rfl⟩
  · rw [h, hoffer, Option.any_none, if_neg Bool.false_ne_true]
    exact ⟨full, rfl⟩

/-- The diagnostic that a queue with the mark gives out last. -/
def notice (q : Queue) : Diagnostic :=
  Diagnostic.tooMany q.config.errorLimit
    ((q.ordered.getLast?.bind Diagnostic.primarySpan?).getD Span.none)

theorem perform_flush (q : Queue) : q.perform .flush
    = (.given (q.ordered ++ if q.overflowed then [q.notice] else []), new q.config) := rfl

theorem perform_flush_marked (q : Queue) :
    q.marked.perform .flush = (.given (q.ordered ++ [q.notice]), new q.config) := rfl

/-- **The mark of a full queue is noticed when it is disclosed.** -/
theorem answers_marked_eq_iff (full : q.limitReached = true) (clean : q.overflowed = false)
    (later : List Request) :
    q.marked.answers later = q.answers later ↔ discloses later = false := by
  induction later generalizing q with
  | nil => exact ⟨fun _ => rfl, fun _ => rfl⟩
  | cons request rest ih =>
      rw [answers_cons, answers_cons, discloses]
      cases hflush : request.isFlush with
      | true =>
          obtain rfl : request = .flush := by
            cases request with
            | flush => rfl
            | _ => cases hflush
          rw [Bool.true_or, perform_flush_marked, perform_flush, clean]
          constructor
          · intro h
            simp at h
          · intro h
            cases h
      | false =>
          rw [perform_marked q hflush, List.cons.injEq, Bool.false_or]
          obtain ⟨hfull, hmark⟩ := perform_of_full full hflush
          cases herror : request.offersError with
          | true =>
              -- another error leaves the mark as well, and from there on the two are one
              rw [herror, if_pos rfl] at hmark
              rw [hmark]
              simp [marked]
          | false =>
              rw [herror, if_neg Bool.false_ne_true] at hmark
              rw [Bool.not_false, Bool.true_and, ih hfull (hmark.trans clean)]
              simp

/-! ### Repeated errors -/

/-- **A repeated error leaves at most the mark.** -/
theorem perform_repeated (dedup : q.config.deduplicate = true)
    (offers : request.offer? = some entry) (error : entry.diagnostic.isError = true)
    (queued : held ∈ q.entries.toList) (alike : held.Alike entry) :
    q.perform request = (.taken false, if q.limitReached then q.marked else q) := by
  have hkeeps : request.isFlush = false := by
    cases request with
    | flush => cases offers
    | _ => rfl
  rcases perform_cases q request hkeeps with ⟨other, hoffer, -, -, h⟩
    | ⟨other, hoffer, hwhy, -⟩ | ⟨hoffer, -⟩
  · rw [h]
    cases q.limitReached with
    | true => rw [Bool.or_true, if_pos rfl, marked]
    | false => rw [Bool.or_false, if_neg Bool.false_ne_true]
  · obtain rfl := Option.some.inj (offers.symm.trans hoffer)
    exact absurd alike ((hwhy error).2 dedup held queued)
  · rw [offers] at hoffer
    cases hoffer

/-- What a queue answers up to where it gives out, there, and after that. -/
theorem answers_flush (q : Queue) (before later : List Request) :
    let last := q.runAll before
    q.answers (before ++ .flush :: later) = q.answers before
      ++ .given (last.ordered ++ if last.overflowed then [last.notice] else [])
        :: (new q.config).answers later := by
  intro last
  have hconfig : last.config = q.config := config_runAll q before
  rw [answers_append, answers_cons, perform_flush, hconfig]

/-- **When a repeated error is noticed, and how.**  An error that is alike a queued diagnostic is
turned away.  What the queue answers to later requests is what it would have answered without that
error, unless the queue was full, no other error had found it full, and it gives out before another
error comes.  In any case the answers are the same until it gives out and after that; what it gives
out the first time ends with a notice of too many errors if an error has found it full, and the
repeated one counts as such an error. -/
theorem answers_of_repeated (dedup : q.config.deduplicate = true)
    (offers : request.offer? = some entry) (error : entry.diagnostic.isError = true)
    (queued : held ∈ q.entries.toList) (alike : held.Alike entry) :
    let after := (q.perform request).2
    (q.perform request).1 = .taken false
      ∧ (∀ later, after.answers later = q.answers later ↔
        ¬ (q.limitReached = true ∧ q.overflowed = false ∧ discloses later = true))
      ∧ ∀ before later, (∀ request ∈ before, request.isFlush = false) →
        let last := q.runAll before
        q.answers (before ++ .flush :: later) = q.answers before
            ++ .given (last.ordered ++ if last.overflowed then [last.notice] else [])
              :: (new q.config).answers later
          ∧ after.answers (before ++ .flush :: later) = q.answers before
            ++ .given (last.ordered
                ++ if last.overflowed || q.limitReached then [last.notice] else [])
              :: (new q.config).answers later := by
  intro after
  have hperform := perform_repeated dedup offers error queued alike
  -- all that the request can leave behind is the mark
  have hafter : after = if q.limitReached then q.marked else q := congrArg Prod.snd hperform
  refine ⟨congrArg Prod.fst hperform, fun later => ?_, fun before later keeps => ?_⟩
  · rw [hafter]
    cases hfull : q.limitReached with
    | false => simp
    | true =>
        cases hclean : q.overflowed with
        | true => simp [marked_of_overflowed hclean]
        | false => simp [answers_marked_eq_iff hfull hclean]
  · intro last
    refine ⟨answers_flush q before later, ?_⟩
    rw [hafter]
    cases hfull : q.limitReached with
    | false =>
        rw [if_neg Bool.false_ne_true, Bool.or_false]
        exact answers_flush q before later
    | true =>
        obtain ⟨hanswers, hrun⟩ := answers_marked q keeps
        rw [if_pos rfl, Bool.or_true, if_pos rfl, answers_flush, hanswers, hrun]
        rfl

/-- A queue with room for one error, which it has; it looks for repeats. -/
def onlyError : Queue := ⟨⟨1, true, true⟩, #[⟨plain .error, ⟨1, 1⟩⟩], 1, false⟩

/-- The error of that queue, offered again in its line. -/
def again : Request := .add (plain .error) ⟨1, 4⟩

theorem offer?_again : again.offer? = some ⟨plain .error, ⟨1, 4⟩⟩ := rfl

theorem exists_alike_onlyError :
    ∃ held ∈ onlyError.entries.toList, held.Alike ⟨plain .error, ⟨1, 4⟩⟩ :=
  ⟨_, List.mem_singleton_self _, rfl, rfl, rfl⟩

/-- The error is offered again.  What follows is answered alike, since another error comes before
the queue gives out. -/
theorem answers_of_again : (onlyError.perform again).1 = .taken false
    ∧ (onlyError.perform again).2.answers [.peek, .add (plain .error) ⟨2, 1⟩, .flush]
      = onlyError.answers [.peek, .add (plain .error) ⟨2, 1⟩, .flush] := by
  obtain ⟨held, queued, alike⟩ := exists_alike_onlyError
  obtain ⟨hanswer, hlater, -⟩ := answers_of_repeated rfl offer?_again rfl queued alike
  refine ⟨hanswer, (hlater _).2 fun h => ?_⟩
  cases h.2.2

/-- The error is offered again.  If the queue gives out then, it says that there were more errors,
and it would not have said so. -/
theorem flush_of_again :
    (new ⟨1, true, true⟩).runAll [.add (plain .error) ⟨1, 1⟩] = onlyError
      ∧ (onlyError.perform again).1 = .taken false
      ∧ onlyError.answers [.flush] = [.given [plain .error]]
      ∧ (onlyError.perform again).2.answers [.flush]
        = [.given [plain .error, Diagnostic.tooMany 1 Span.none]] := by
  obtain ⟨held, queued, alike⟩ := exists_alike_onlyError
  have hperform : onlyError.perform again = (.taken false, onlyError.marked) :=
    perform_repeated rfl offer?_again rfl queued alike
  have hordered : onlyError.ordered = [plain .error] := by simp [ordered, onlyError]
  have hnotice : onlyError.notice = Diagnostic.tooMany 1 Span.none := by
    rw [notice, hordered]
    rfl
  refine ⟨?_, by rw [hperform], ?_, ?_⟩
  · simp [runAll, perform, add, new, limitReached, repeats, onlyError, isError_plain]
  · rw [answers_cons, perform_flush, hordered]
    rfl
  · rw [hperform, answers_cons, perform_flush_marked, hordered, hnotice]
    rfl

end Queue

end SyntaxForest
