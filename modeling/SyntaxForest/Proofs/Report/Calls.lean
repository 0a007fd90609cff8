/-
**What a queue accounts for.**

A queue keeps no record of what it was offered: it holds a list, a number and a mark.  Here the
record is kept beside it, call by call, and only the calls since the queue last gave out what it
held are looked at.  The list, the number and the mark turn out to say nothing but what that record
says: the list is what was accepted, the number counts the errors in it, and the mark tells whether
an error found the queue full.  A queue that has given out what it held has an empty record, and
nothing that it is asked later tells it from a new one.

Main definitions:

* `Queue.Request`, `Queue.Answer`, `Queue.perform` — what a queue can be asked, and its answers;
* `Queue.Call`, `Queue.calls`, `Queue.sinceFlush` — the record of a run, and its last part;
* `Queue.offered`, `Queue.accepted`, `Queue.Call.foundFull` — what the record says;
* `Queue.Accounts` — a queue that holds what a record says.

Main results:

* `Queue.perform_cases` — what one request does;
* `Queue.Accounts.perform` — a request goes on the record and into the queue alike;
* `Queue.accounts_runAll` — a queue holds what its record says, after any requests;
* `Queue.Accounts.flush` — what is given out then;
* `Queue.accounts_of_run` — **both, of a queue that starts empty, and that it then starts anew.**
-/

import SyntaxForest.Proofs.Report.Queued

set_option relaxedAutoImplicit false
set_option autoImplicit false

namespace SyntaxForest

namespace Queue

/-! ### Requests and their record -/

inductive Request
  | add (d : Diagnostic) (position : Position)
  | addWithSource (d : Diagnostic) (source : String)
  | addWithTable (d : Diagnostic) (source : String) (table : LineTable)
  | peek
  | limitReached
  | errorCount
  | flush

inductive Answer
  | taken (accepted : Bool)
  | given (diagnostics : List Diagnostic)
  | full (reached : Bool)
  | count (errors : Nat)
  deriving DecidableEq

/-- The diagnostic that a request offers, at its position. -/
def Request.offer? : Request → Option Entry
  | .add d position => some ⟨d, position⟩
  | .addWithSource d source => some ⟨d, positionInSource source d⟩
  | .addWithTable d source table => some ⟨d, positionInTable source table d⟩
  | _ => none

/-- A request that takes everything out of a queue. -/
def Request.isFlush : Request → Bool
  | .flush => true
  | _ => false

def perform (q : Queue) : Request → Answer × Queue
  | .add d position => (q.add d position).map .taken id
  | .addWithSource d source => (q.addWithSource d source).map .taken id
  | .addWithTable d source table => (q.addWithTable d source table).map .taken id
  | .peek => (.given q.diagnostics, q)
  | .limitReached => (.full q.limitReached, q)
  | .errorCount => (.count q.errorCount, q)
  | .flush => q.flush.map .given id

def runAll (q : Queue) (requests : List Request) : Queue :=
  requests.foldl (fun q request => (q.perform request).2) q

structure Call where
  queue : Queue
  request : Request

def Call.answer (call : Call) : Answer := (call.queue.perform call.request).1

def calls (q : Queue) : List Request → List Call
  | [] => []
  | request :: rest => ⟨q, request⟩ :: (q.perform request).2.calls rest

def answers (q : Queue) (requests : List Request) : List Answer :=
  (q.calls requests).map Call.answer

/-- The calls since the queue last gave out what it held. -/
def sinceFlush (record : List Call) : List Call :=
  (record.reverse.takeWhile fun call => !call.request.isFlush).reverse

/-- What was offered, in the order in which it came. -/
def offered (record : List Call) : List Entry := record.filterMap fun call => call.request.offer?

/-- What was offered and accepted, in the order in which it came. -/
def accepted (record : List Call) : List Entry :=
  offered (record.filter fun call => call.answer = .taken true)

def errors (entries : List Entry) : List Entry :=
  entries.filter fun entry => entry.diagnostic.isError

/-- An error was turned away, and the queue was full. -/
def Call.foundFull (call : Call) : Bool :=
  (call.request.offer?.any fun entry => entry.diagnostic.isError)
    && call.answer = .taken false && call.queue.limitReached

/-- Two diagnostics that tell the reader the same about the same line. -/
def Entry.Alike (a b : Entry) : Prop :=
  a.position.line = b.position.line ∧ a.diagnostic.code = b.diagnostic.code
    ∧ a.diagnostic.message = b.diagnostic.message

/-- A queue that holds what a record says. -/
structure Accounts (config : Config) (record : List Call) (q : Queue) : Prop where
  settings : q.config = config
  warnings : ∀ call ∈ record, ∀ entry, call.request.offer? = some entry →
    entry.diagnostic.isError = false → call.answer = .taken true
  entries : q.entries.toList = accepted record
  errorCount : q.errorCount = (errors (accepted record)).length
  bound : config.errorLimit ≠ 0 → q.errorCount ≤ config.errorLimit
  /-- They are the first that came, where repetitions do not matter. -/
  first : config.deduplicate = false → errors (accepted record)
    = if config.errorLimit = 0 then errors (offered record)
      else (errors (offered record)).take config.errorLimit
  distinct : config.deduplicate = true →
    (errors (accepted record)).Pairwise fun a b => ¬ a.Alike b
  /-- It is noted if an error found the queue full. -/
  overflowed : q.overflowed = record.any Call.foundFull

variable {q : Queue} {config : Config} {record : List Call} {request : Request} {entry : Entry}

/-! ### One request -/

/-- Offering a diagnostic puts it into the queue. -/
theorem perform_of_offer (offers : request.offer? = some entry) :
    q.perform request = (q.add entry.diagnostic entry.position).map .taken id := by
  cases request with
  | add d position =>
      obtain rfl := Option.some.inj offers
      rfl
  | addWithSource d source =>
      obtain rfl := Option.some.inj offers
      rfl
  | addWithTable d source table =>
      obtain rfl := Option.some.inj offers
      rfl
  | _ => cases offers

/-- Asking a queue for what it holds leaves it as it is. -/
theorem perform_of_none (offers : request.offer? = none) (keeps : request.isFlush = false) :
    (q.perform request).1 ≠ .taken true ∧ (q.perform request).2 = q := by
  cases request with
  | peek => exact ⟨Answer.noConfusion, rfl⟩
  | limitReached => exact ⟨Answer.noConfusion, rfl⟩
  | errorCount => exact ⟨Answer.noConfusion, rfl⟩
  | flush => cases keeps
  | _ => cases offers

theorem repeats_iff : q.repeats entry.diagnostic entry.position.line = true ↔
    entry.diagnostic.isError = true ∧ ∃ held ∈ q.entries.toList, held.Alike entry := by
  simp only [repeats, Entry.Alike, Bool.and_eq_true, Array.any_eq_true', decide_eq_true_eq,
    Array.mem_toList_iff, and_assoc]

/-- **What one request does.**  An error is turned away because the queue is full, which is noted,
or because it repeats another; any other offer is taken; asking the queue for what it holds changes
nothing. -/
theorem perform_cases (q : Queue) (request : Request) (keeps : request.isFlush = false) :
    (∃ entry, request.offer? = some entry ∧ entry.diagnostic.isError = true
      ∧ (q.limitReached = false →
        q.config.deduplicate = true ∧ ∃ held ∈ q.entries.toList, held.Alike entry)
      ∧ q.perform request
        = (.taken false, { q with overflowed := q.overflowed || q.limitReached }))
    ∨ (∃ entry, request.offer? = some entry
      ∧ (entry.diagnostic.isError = true → q.limitReached = false
        ∧ (q.config.deduplicate = true → ∀ held ∈ q.entries.toList, ¬ held.Alike entry))
      ∧ q.perform request = (.taken true, { q with
          entries := q.entries.push entry
          errorCount := if entry.diagnostic.isError then q.errorCount + 1 else q.errorCount }))
    ∨ (request.offer? = none ∧ (q.perform request).1 ≠ .taken true
      ∧ (q.perform request).2 = q) := by
  cases hoffer : request.offer? with
  | none => exact Or.inr (Or.inr ⟨rfl, perform_of_none hoffer keeps⟩)
  | some entry =>
      rw [perform_of_offer hoffer]
      unfold add
      -- the limit is tested before repetitions are looked for
      cases hfull : entry.diagnostic.isError && q.limitReached with
      | true =>
          obtain ⟨herror, hlimit⟩ := Bool.and_eq_true_iff.1 hfull
          refine Or.inl ⟨entry, rfl, herror, fun hroom => ?_, ?_⟩
          · rw [hlimit] at hroom
            cases hroom
          · rw [hlimit, Bool.or_true]
            rfl
      | false =>
          have hroom : entry.diagnostic.isError = true → q.limitReached = false := by
            intro herror
            rwa [herror, Bool.true_and] at hfull
          cases hrepeat :
              q.config.deduplicate && q.repeats entry.diagnostic entry.position.line with
          | true =>
              obtain ⟨hdedup, hrepeats⟩ := Bool.and_eq_true_iff.1 hrepeat
              obtain ⟨herror, halike⟩ := repeats_iff.1 hrepeats
              refine Or.inl ⟨entry, rfl, herror, fun _ => ⟨hdedup, halike⟩, ?_⟩
              rw [hroom herror, Bool.or_false]
              rfl
          | false =>
              refine Or.inr (Or.inl ⟨entry, rfl, fun herror =>
                ⟨hroom herror, fun hdedup held hheld halike => ?_⟩, rfl⟩)
              rw [hdedup, Bool.true_and, repeats_iff.2 ⟨herror, held, hheld, halike⟩] at hrepeat
              cases hrepeat

/-! ### Going on the record -/

theorem sinceFlush_append (record : List Call) (call : Call) :
    sinceFlush (record ++ [call])
      = if call.request.isFlush then [] else sinceFlush record ++ [call] := by
  rw [sinceFlush, List.reverse_append, List.reverse_singleton, List.singleton_append,
    List.takeWhile_cons]
  cases call.request.isFlush
  · exact List.reverse_cons
  · rfl

theorem offered_append (record : List Call) (call : Call) :
    offered (record ++ [call]) = offered record ++ call.request.offer?.toList := by
  rw [offered, List.filterMap_append]
  cases h : call.request.offer? <;> simp [offered, h]

theorem accepted_append (record : List Call) (call : Call) :
    accepted (record ++ [call]) = accepted record
      ++ if call.answer = .taken true then call.request.offer?.toList else [] := by
  rw [accepted, List.filter_append, List.filter_cons, List.filter_nil]
  by_cases h : call.answer = .taken true
  · rw [if_pos (decide_eq_true h), if_pos h]
    exact offered_append _ call
  · rw [if_neg (by rwa [decide_eq_true_eq]), if_neg h, List.append_nil, List.append_nil]
    rfl

theorem offered_concat {call : Call} (offers : call.request.offer? = some entry) :
    offered (record ++ [call]) = offered record ++ [entry] := by
  rw [offered_append, offers, Option.toList_some]

theorem offered_concat_of_none {call : Call} (offers : call.request.offer? = none) :
    offered (record ++ [call]) = offered record := by
  rw [offered_append, offers, Option.toList_none, List.append_nil]

theorem accepted_concat {call : Call} (offers : call.request.offer? = some entry)
    (answers : call.answer = .taken true) :
    accepted (record ++ [call]) = accepted record ++ [entry] := by
  rw [accepted_append, if_pos answers, offers, Option.toList_some]

theorem accepted_concat_of_ne {call : Call} (answers : call.answer ≠ .taken true) :
    accepted (record ++ [call]) = accepted record := by
  rw [accepted_append, if_neg answers, List.append_nil]

theorem errors_append (entries : List Entry) (entry : Entry) :
    errors (entries ++ [entry])
      = errors entries ++ if entry.diagnostic.isError then [entry] else [] := by
  rw [errors, List.filter_append]
  cases h : entry.diagnostic.isError <;> simp [errors, h]

theorem any_foundFull_append (record : List Call) (call : Call) :
    (record ++ [call]).any Call.foundFull = (record.any Call.foundFull || call.foundFull) := by
  rw [List.any_append, List.any_cons, List.any_nil, Bool.or_false]

/-- An empty record says what a new queue holds. -/
theorem accounts_new (config : Config) : Accounts config [] (new config) where
  settings := rfl
  warnings _ h := absurd h List.not_mem_nil
  entries := rfl
  errorCount := rfl
  bound _ := Nat.zero_le _
  first _ := by
    split
    · rfl
    · exact List.take_nil.symm
  distinct _ := List.Pairwise.nil
  overflowed := rfl

theorem accounts_start (config : Config) : Accounts config (sinceFlush []) (new config) :=
  accounts_new config

/-- Errors that fill a queue leave no room for more of those that came. -/
theorem Accounts.take_append (accounts : Accounts config record q)
    (keeps : config.deduplicate = false) (full : q.limitReached = true) (more : List Entry) :
    (errors (offered record) ++ more).take config.errorLimit
      = (errors (offered record)).take config.errorLimit := by
  obtain ⟨hlimit, hle⟩ := limitReached_iff.1 full
  rw [accounts.settings] at hlimit hle
  have hfirst := accounts.first keeps
  rw [if_neg hlimit] at hfirst
  rw [accounts.errorCount, hfirst, List.length_take] at hle
  exact List.take_append_of_le_length (Nat.le_trans hle (Nat.min_le_right _ _))

/-- A queue with room has accepted all errors that came, and will accept the next. -/
theorem Accounts.take_concat (accounts : Accounts config record q)
    (keeps : config.deduplicate = false) (limited : config.errorLimit ≠ 0)
    (room : q.limitReached = false) (entry : Entry) :
    (errors (offered record) ++ [entry]).take config.errorLimit
      = (errors (offered record)).take config.errorLimit ++ [entry] := by
  have hlt : q.errorCount < config.errorLimit := by
    refine Nat.lt_of_not_le fun hle => ?_
    rw [← accounts.settings] at limited hle
    rw [limitReached_iff.2 ⟨limited, hle⟩] at room
    cases room
  have hfirst := accounts.first keeps
  rw [if_neg limited] at hfirst
  rw [accounts.errorCount, hfirst, List.length_take] at hlt
  have hfew : (errors (offered record)).length < config.errorLimit := by omega
  rw [List.take_of_length_le (by rw [List.length_append]; exact hfew),
    List.take_of_length_le (Nat.le_of_lt hfew)]

/-- An error that is turned away is only noted. -/
theorem Accounts.turnedAway (accounts : Accounts config record q)
    (offers : request.offer? = some entry) (error : entry.diagnostic.isError = true)
    (why : q.limitReached = false → q.config.deduplicate = true)
    (answers : (q.perform request).1 = .taken false) :
    Accounts config (record ++ [⟨q, request⟩])
      { q with overflowed := q.overflowed || q.limitReached } := by
  have hanswer : Call.answer ⟨q, request⟩ = .taken false := answers
  have haccepted : accepted (record ++ [⟨q, request⟩]) = accepted record :=
    accepted_concat_of_ne (by rw [hanswer]; decide)
  have hoffered : errors (offered (record ++ [⟨q, request⟩]))
      = errors (offered record) ++ [entry] := by
    rw [offered_concat offers, errors_append, if_pos error]
  exact {
    settings := accounts.settings
    warnings := by
      refine List.forall_mem_append.2 ⟨accounts.warnings, List.forall_mem_singleton.2 ?_⟩
      intro other hother hwarning
      obtain rfl := Option.some.inj (offers.symm.trans hother)
      rw [error] at hwarning
      cases hwarning
    entries := accounts.entries.trans haccepted.symm
    errorCount := by rw [haccepted]; exact accounts.errorCount
    bound := accounts.bound
    first := by
      intro keeps
      rw [haccepted, hoffered, accounts.first keeps]
      split
      · next hlimit =>
          -- a queue without a limit turns away repetitions only
          have hroom : q.limitReached = false := by
            rw [limitReached, accounts.settings, hlimit]
            rfl
          rw [accounts.settings, keeps] at why
          cases why hroom
      · refine (accounts.take_append keeps ?_ [entry]).symm
        cases hfull : q.limitReached with
        | true => rfl
        | false =>
            rw [accounts.settings, keeps] at why
            cases why hfull
    distinct := by rw [haccepted]; exact accounts.distinct
    overflowed := by
      have hfull : Call.foundFull ⟨q, request⟩ = q.limitReached := by
        simp [Call.foundFull, hanswer, offers, error]
      rw [any_foundFull_append, hfull, accounts.overflowed] }

/-- What is taken is held, and counted if it is an error. -/
theorem Accounts.taken (accounts : Accounts config record q)
    (offers : request.offer? = some entry)
    (why : entry.diagnostic.isError = true → q.limitReached = false
      ∧ (q.config.deduplicate = true → ∀ held ∈ q.entries.toList, ¬ held.Alike entry))
    (answers : (q.perform request).1 = .taken true) :
    Accounts config (record ++ [⟨q, request⟩]) { q with
      entries := q.entries.push entry
      errorCount := if entry.diagnostic.isError then q.errorCount + 1 else q.errorCount } := by
  have hanswer : Call.answer ⟨q, request⟩ = .taken true := answers
  have haccepted : accepted (record ++ [⟨q, request⟩]) = accepted record ++ [entry] :=
    accepted_concat offers hanswer
  have hoffered : offered (record ++ [⟨q, request⟩]) = offered record ++ [entry] :=
    offered_concat offers
  exact {
    settings := accounts.settings
    warnings := List.forall_mem_append.2
      ⟨accounts.warnings, List.forall_mem_singleton.2 fun _ _ _ => hanswer⟩
    entries := by
      rw [haccepted, ← accounts.entries]
      exact Array.toList_push
    errorCount := by
      rw [haccepted, errors_append, List.length_append, ← accounts.errorCount]
      cases entry.diagnostic.isError <;> rfl
    bound := by
      intro hlimit
      have hbound := accounts.bound hlimit
      cases herror : entry.diagnostic.isError with
      | false => exact hbound
      | true =>
          -- an error that is taken found the queue below its limit
          refine Nat.lt_of_not_le fun hle => ?_
          have hroom := (why herror).1
          rw [← accounts.settings] at hlimit hle
          rw [limitReached_iff.2 ⟨hlimit, hle⟩] at hroom
          cases hroom
    first := by
      intro keeps
      rw [haccepted, hoffered, errors_append, errors_append, accounts.first keeps]
      split
      · rfl
      · next hlimit =>
          cases herror : entry.diagnostic.isError with
          | false => rw [if_neg Bool.false_ne_true, List.append_nil, List.append_nil]
          | true => exact (accounts.take_concat keeps hlimit (why herror).1 entry).symm
    distinct := by
      intro hdedup
      rw [haccepted, errors_append]
      cases herror : entry.diagnostic.isError with
      | false =>
          rw [if_neg Bool.false_ne_true, List.append_nil]
          exact accounts.distinct hdedup
      | true =>
          refine List.pairwise_append.2 ⟨accounts.distinct hdedup, List.pairwise_singleton _ _, ?_⟩
          intro held hheld other hother
          obtain rfl := List.mem_singleton.1 hother
          rw [← accounts.entries] at hheld
          -- it was compared with all that is held, and what was accepted is held
          exact (why herror).2 (accounts.settings ▸ hdedup) held (List.mem_filter.1 hheld).1
    overflowed := by
      have hfull : Call.foundFull ⟨q, request⟩ = false := by simp [Call.foundFull, hanswer]
      rw [any_foundFull_append, hfull, Bool.or_false]
      exact accounts.overflowed }

/-- Asking a queue for what it holds leaves all accounts as they are. -/
theorem Accounts.looked (accounts : Accounts config record q) (offers : request.offer? = none)
    (answers : (q.perform request).1 ≠ .taken true) :
    Accounts config (record ++ [⟨q, request⟩]) q := by
  have haccepted : accepted (record ++ [⟨q, request⟩]) = accepted record :=
    accepted_concat_of_ne answers
  have hoffered : offered (record ++ [⟨q, request⟩]) = offered record :=
    offered_concat_of_none offers
  exact {
    settings := accounts.settings
    warnings := by
      refine List.forall_mem_append.2 ⟨accounts.warnings, List.forall_mem_singleton.2 ?_⟩
      intro other hother _
      have hnone := offers.symm.trans hother
      cases hnone
    entries := by rw [haccepted]; exact accounts.entries
    errorCount := by rw [haccepted]; exact accounts.errorCount
    bound := accounts.bound
    first := by rw [haccepted, hoffered]; exact accounts.first
    distinct := by rw [haccepted]; exact accounts.distinct
    overflowed := by
      have hfull : Call.foundFull ⟨q, request⟩ = false := by simp [Call.foundFull, offers]
      rw [any_foundFull_append, hfull, Bool.or_false]
      exact accounts.overflowed }

/-- A request goes on the record and into the queue alike. -/
theorem Accounts.perform (accounts : Accounts config (sinceFlush record) q) (request : Request) :
    Accounts config (sinceFlush (record ++ [⟨q, request⟩])) (q.perform request).2 := by
  rw [sinceFlush_append]
  cases hflush : request.isFlush with
  | true =>
      cases request with
      | flush =>
          show Accounts config [] (new q.config)
          rw [accounts.settings]
          exact accounts_new config
      | _ => cases hflush
  | false =>
      rw [if_neg Bool.false_ne_true]
      rcases perform_cases q request hflush with ⟨entry, hoffer, herror, hwhy, hperform⟩
        | ⟨entry, hoffer, hwhy, hperform⟩ | ⟨hoffer, hanswer, hsame⟩
      · have haccounts := accounts.turnedAway hoffer herror (fun hroom => (hwhy hroom).1)
          (congrArg Prod.fst hperform)
        rwa [hperform]
      · have haccounts := accounts.taken hoffer hwhy (congrArg Prod.fst hperform)
        rwa [hperform]
      · rw [hsame]
        exact accounts.looked hoffer hanswer

/-- **A queue holds what its record says, after any requests.** -/
theorem accounts_runAll (requests : List Request)
    (accounts : Accounts config (sinceFlush record) q) :
    Accounts config (sinceFlush (record ++ q.calls requests)) (q.runAll requests) := by
  induction requests generalizing q record with
  | nil =>
      rw [calls, List.append_nil]
      exact accounts
  | cons request rest ih =>
      have hrest := ih (accounts.perform request)
      rwa [List.append_assoc] at hrest

/-! ### What is given out -/

/-- What is kept in the order of its places, or in the order in which it came if a queue does not
sort. -/
def InOrder (config : Config) (kept sorted : List Entry) : Prop :=
  if config.sort then StablySorted Entry.position kept sorted else sorted = kept

theorem Accounts.ordered (accounts : Accounts config record q) :
    ∃ sorted, q.ordered = sorted.map (·.diagnostic) ∧ InOrder config (accepted record) sorted := by
  unfold Queue.ordered InOrder
  rw [← accounts.entries, accounts.settings]
  cases config.sort with
  | true => exact ⟨_, rfl, stablySorted_mergeSort _ _⟩
  | false => exact ⟨_, rfl, rfl⟩

/-- **What is given out:** what was accepted, and then one diagnostic of too many errors if an
error found the queue full. -/
theorem Accounts.flush (accounts : Accounts config record q) :
    ∃ sorted last, (q.perform .flush).1 = .given (sorted.map (·.diagnostic) ++ last)
      ∧ InOrder config (accepted record) sorted
      ∧ last = (if record.any Call.foundFull then
          [Diagnostic.tooMany config.errorLimit
            (((sorted.map (·.diagnostic)).getLast?.bind Diagnostic.primarySpan?).getD Span.none)]
        else [])
      ∧ ∀ x ∈ last, x.code.text = "E9002" ∧ x.severity = .error
        ∧ x.message = s!"aborting after {config.errorLimit} errors" := by
  obtain ⟨sorted, hordered, hinorder⟩ := accounts.ordered
  refine ⟨sorted, _, ?_, hinorder, rfl, fun x hx => ?_⟩
  · rw [← accounts.overflowed, ← hordered, ← accounts.settings]
    rfl
  · obtain ⟨hcode, hseverity, hmessage, -⟩ := Diagnostic.parts_tooMany config.errorLimit
      (((sorted.map (·.diagnostic)).getLast?.bind Diagnostic.primarySpan?).getD Span.none)
    split at hx
    · rw [List.mem_singleton.1 hx]
      exact ⟨hcode, hseverity, hmessage⟩
    · cases hx

theorem runAll_flush (config : Config) (requests : List Request) :
    (new config).runAll (requests ++ [.flush]) = new config := by
  have haccounts := accounts_runAll requests (accounts_start config)
  rw [runAll, List.foldl_append]
  exact congrArg new haccounts.settings

/-- **A queue over a whole run.**  It holds what its record since it last gave out says, shows
what it accepted since then, with the number of errors in it, and gives that out in its order, with
one error E9002 after it exactly if an error found the queue full; nothing that comes after that
tells it from a new queue. -/
theorem accounts_of_run (config : Config) (requests : List Request) :
    let q := (new config).runAll requests
    let record := sinceFlush ((new config).calls requests)
    Accounts config record q
      ∧ (q.perform .peek).1 = .given ((accepted record).map (·.diagnostic))
      ∧ (q.perform .errorCount).1 = .count (errors (accepted record)).length
      ∧ (q.perform .limitReached).1 = .full (decide (config.errorLimit ≠ 0
        ∧ config.errorLimit ≤ (errors (accepted record)).length))
      ∧ (∃ sorted last, (q.perform .flush).1 = .given (sorted.map (·.diagnostic) ++ last)
        ∧ InOrder config (accepted record) sorted
        ∧ last = (if record.any Call.foundFull then
            [Diagnostic.tooMany config.errorLimit
              (((sorted.map (·.diagnostic)).getLast?.bind Diagnostic.primarySpan?).getD Span.none)]
          else [])
        ∧ ∀ x ∈ last, x.code.text = "E9002" ∧ x.severity = .error
          ∧ x.message = s!"aborting after {config.errorLimit} errors")
      ∧ ∀ later, ((new config).runAll (requests ++ [.flush])).answers later
          = (new config).answers later
        ∧ ((new config).runAll (requests ++ [.flush])).runAll later
          = (new config).runAll later := by
  intro q record
  have haccounts : Accounts config record q :=
    accounts_runAll requests (accounts_start config)
  refine ⟨haccounts, ?_, ?_, ?_, haccounts.flush, fun later => ?_⟩
  · show Answer.given q.diagnostics = _
    rw [diagnostics, haccounts.entries]
  · exact congrArg Answer.count haccounts.errorCount
  · refine congrArg Answer.full ?_
    rw [Bool.eq_iff_iff, limitReached_iff, haccounts.settings, haccounts.errorCount,
      decide_eq_true_eq]
  · rw [runAll_flush]
    exact ⟨rfl, rfl⟩

end Queue

end SyntaxForest
