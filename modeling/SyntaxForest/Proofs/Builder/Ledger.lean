/-
**A ledger of the functions that were opened.**

A builder forgets a function once it is closed, and it never says in which function a match was
made.  A ledger goes along with a run and writes that down.  It numbers the functions in the order
in which they are opened, keeps the numbers of those that are open, and records each match under the
number of the innermost one and each function under the number that it closes.  It changes nothing:
the builder in a ledger is the builder of the run.

The invariant is that the counts of the builder are those of the ledger.  It follows that matches
of one number have the slots `0`, `1`, `2` and so on in the order in which they were made, and that
a function has as many locals as matches were made under its number.

Main definitions:

* `Builder.Ledger`, `Builder.Ledger.after`, `Builder.Ledger.runAll` — the record of a run, and how
  steps change it;
* `Builder.Ledger.matchesIn` — the matches that were made under a number;
* `Builder.Ledger.Kept` — the ledgers that are kept from the start;
* `Builder.Ledger.Balanced` — the counts of the builder are those of the ledger.

Main results:

* `Builder.Ledger.builder_runAll` — a ledger only goes along with a run;
* `Builder.Ledger.Balanced.after` — every step, refused or not, keeps the balance;
* `Builder.Ledger.Kept.balanced` — **a ledger that is kept from the start is balanced**;
* `Builder.Reached.exists_ledger` — and every builder has one.
-/

import Mathlib.Data.List.Nodup
import SyntaxForest.Proofs.Builder.Frames
import SyntaxForest.Proofs.Builder.Reach

set_option relaxedAutoImplicit false
set_option autoImplicit false

namespace SyntaxForest

open Forest

namespace Builder

/-- The record of a run. -/
structure Ledger where
  builder : Builder
  /-- How many functions have been opened; the next one gets this number. -/
  opened : Nat
  /-- The numbers of the open functions, the innermost first. -/
  frames : List Nat
  /-- The matches that were made, in order, each with the number of the innermost open function. -/
  matched : List (Nat × NodeId)
  /-- The functions that were made, in order, each with the number that it closed. -/
  closed : List (Nat × NodeId)

/-- The node that a step makes, if it makes one and is not refused. -/
def made? (b : Builder) (step : Step) : Option NodeId :=
  match perform step b with
  | .ok made _ => made
  | .error _ _ => none

namespace Ledger

/-- The ledger of a source, before anything is made. -/
def start (names : NameTable) (source : String) (file : Option String) : Ledger where
  builder := Builder.start names source file
  opened := 0
  frames := []
  matched := []
  closed := []

/-- A node under the number of the innermost open function. -/
def entry (l : Ledger) (made : Option NodeId) : List (Nat × NodeId) :=
  match l.frames, made with
  | frame :: _, some id => [(frame, id)]
  | _, _ => []

/-- The ledger over a builder that has closed some functions. -/
def follow (l : Ledger) (b : Builder) : Ledger :=
  { l with
    builder := b
    frames := l.frames.drop (l.builder.frames.length - b.frames.length) }

/-- **The ledger after a step**, refused or not. -/
def after (l : Ledger) (step : Step) : Ledger :=
  match step with
  | .beginFunction =>
      { l with
        builder := Builder.after l.builder step
        opened := l.opened + 1
        frames := l.opened :: l.frames }
  | .matching .. =>
      { l.follow (Builder.after l.builder step) with
        matched := l.matched ++ l.entry (l.builder.made? step) }
  | .function .. =>
      { l.follow (Builder.after l.builder step) with
        closed := l.closed ++ l.entry (l.builder.made? step) }
  | _ => l.follow (Builder.after l.builder step)

def runAll (l : Ledger) (steps : List Step) : Ledger := steps.foldl after l

/-- The ledgers that are kept from the start, while others may ask the table of names too. -/
inductive Kept : Ledger → Prop
  | start {names : NameTable} (reached : names.Reached) (source : String)
      (file : Option String) : Kept (start names source file)
  | step {l : Ledger} (kept : Kept l) (step : Step) : Kept (l.after step)
  /-- Somebody else asks for the number of a text. -/
  | intern {l : Ledger} (kept : Kept l) (text : String) :
      Kept { l with builder := { l.builder with names := (l.builder.names.intern text).2 } }

/-- The matches that were made while a function was the innermost open one, in order. -/
def matchesIn (l : Ledger) (frame : Nat) : List NodeId :=
  (l.matched.filter (·.1 = frame)).map (·.2)

/-- How many they are. -/
def matchedIn (l : Ledger) (frame : Nat) : Nat := (l.matchesIn frame).length

/-- The counts of the builder are those of the ledger. -/
structure Balanced (l : Ledger) : Prop where
  /-- The counts of the open functions are the numbers of the matches in them. -/
  counts : l.builder.frames = l.frames.map l.matchedIn
  nodup : l.frames.Nodup
  opened : ∀ frame ∈ l.frames, frame < l.opened
  matched : ∀ frame id, (frame, id) ∈ l.matched → frame < l.opened
  closed : ∀ frame id, (frame, id) ∈ l.closed → frame < l.opened ∧ frame ∉ l.frames
  functions : (l.closed.map (·.2)).Nodup ∧ ∀ frame id, (frame, id) ∈ l.closed →
    id.raw < l.builder.forest.size
  /-- The matches in a function have their places as slots. -/
  slots : ∀ frame place id, (l.matchesIn frame)[place]? = some id →
    l.builder.forest.slot? id = some ⟨place⟩
  /-- Every match is recorded. -/
  recorded : ∀ id slot, l.builder.forest.slot? id = some slot → ∃ frame, (frame, id) ∈ l.matched
  /-- A function has as many locals as there are matches in it, all without a type. -/
  locals : ∀ frame id, (frame, id) ∈ l.closed →
    l.builder.forest.locals id = List.replicate (l.matchedIn frame) TypeId.unresolved
  room : l.matched.length ≤ l.builder.forest.size

variable {l : Ledger} {b : Builder} {frame : Nat} {id : NodeId}

/-! ### The record -/

theorem mem_matchesIn_iff : id ∈ l.matchesIn frame ↔ (frame, id) ∈ l.matched := by
  simp [matchesIn]

theorem matchedIn_le (l : Ledger) (frame : Nat) : l.matchedIn frame ≤ l.matched.length := by
  rw [matchedIn, matchesIn, List.length_map]
  exact List.length_filter_le _ _

theorem builder_after (l : Ledger) (step : Step) :
    (l.after step).builder = Builder.after l.builder step := by
  cases step <;> rfl

/-- A ledger only goes along with a run. -/
theorem builder_runAll (l : Ledger) (steps : List Step) :
    (l.runAll steps).builder = Builder.runAll l.builder steps := by
  induction steps generalizing l with
  | nil => rfl
  | cons step steps ih =>
      refine (ih (l.after step)).trans ?_
      rw [builder_after]
      rfl

theorem Kept.runAll (kept : l.Kept) (steps : List Step) : (l.runAll steps).Kept := by
  induction steps generalizing l with
  | nil => exact kept
  | cons step steps ih => exact ih (kept.step step)

theorem Kept.reached (kept : l.Kept) : l.builder.Reached := by
  induction kept with
  | start reached source file => exact .start reached source file
  | step _ step ih =>
      rw [builder_after]
      exact ih.step step
  | intern _ text ih => exact ih.intern text

theorem entry_of_head? (h : l.frames.head? = some frame) : l.entry (some id) = [(frame, id)] := by
  cases hframes : l.frames with
  | nil =>
      rw [hframes] at h
      cases h
  | cons first frames =>
      rw [hframes] at h
      cases h
      simp only [entry, hframes]

theorem entry_none (l : Ledger) : l.entry none = [] := by
  unfold entry
  split
  · next h => cases h
  · rfl

section

variable {name scrutinee : NodeId} {returnType body : Option NodeId}
  {parameters arms : List NodeId} {span : Span} {refusal : Refusal}

/-- A function that is made is recorded under the number that it closes. -/
theorem after_function_ok (h : function name returnType parameters body span l.builder = .ok id b)
    (hframe : l.frames.head? = some frame) :
    l.after (.function name returnType parameters body span)
      = { l.follow b with closed := l.closed ++ [(frame, id)] } := by
  have hstep : perform (.function name returnType parameters body span) l.builder
      = .ok (some id) b := SyntaxForest.Step.map_eq_ok_iff.2 ⟨id, h, rfl⟩
  simp only [Ledger.after, Builder.after, made?, hstep, entry_of_head? hframe]

theorem after_function_error
    (h : function name returnType parameters body span l.builder = .error refusal b) :
    l.after (.function name returnType parameters body span) = l.follow b := by
  have hstep : perform (.function name returnType parameters body span) l.builder
      = .error refusal b := SyntaxForest.Step.map_eq_error_iff.2 h
  simp only [Ledger.after, Builder.after, made?, hstep, entry_none, List.append_nil]
  rfl

/-- A match that is made is recorded under the innermost number. -/
theorem after_matching_ok (h : matching scrutinee arms span l.builder = .ok id b)
    (hframe : l.frames.head? = some frame) :
    l.after (.matching scrutinee arms span)
      = { l.follow b with matched := l.matched ++ [(frame, id)] } := by
  have hstep : perform (.matching scrutinee arms span) l.builder = .ok (some id) b :=
    SyntaxForest.Step.map_eq_ok_iff.2 ⟨id, h, rfl⟩
  simp only [Ledger.after, Builder.after, made?, hstep, entry_of_head? hframe]

theorem after_matching_error (h : matching scrutinee arms span l.builder = .error refusal b) :
    l.after (.matching scrutinee arms span) = l.follow b := by
  have hstep : perform (.matching scrutinee arms span) l.builder = .error refusal b :=
    SyntaxForest.Step.map_eq_error_iff.2 h
  simp only [Ledger.after, Builder.after, made?, hstep, entry_none, List.append_nil]
  rfl

end

/-! ### What a balanced ledger says -/

theorem Balanced.slot_of_matched (balanced : l.Balanced) (h : (frame, id) ∈ l.matched) :
    ∃ place, (l.matchesIn frame)[place]? = some id
      ∧ l.builder.forest.slot? id = some ⟨place⟩ := by
  obtain ⟨place, hplace⟩ := List.mem_iff_getElem?.1 (mem_matchesIn_iff.2 h)
  exact ⟨place, hplace, balanced.slots frame place id hplace⟩

theorem Balanced.frame_unique {other : Nat} (balanced : l.Balanced) (h : (frame, id) ∈ l.closed)
    (h' : (other, id) ∈ l.closed) : frame = other :=
  congrArg Prod.fst (List.inj_on_of_nodup_map balanced.functions.1 h h' rfl)

/-! ### Steps that make no match -/

/-- Closing functions keeps the balance. -/
theorem Balanced.follow (balanced : l.Balanced) (quiet : Quiet l.builder b) :
    (l.follow b).Balanced where
  counts := by
    change b.frames = (l.frames.drop _).map l.matchedIn
    rw [List.map_drop, ← balanced.counts]
    exact List.suffix_iff_eq_drop.1 quiet.frames
  nodup := balanced.nodup.sublist (List.drop_sublist _ _)
  opened frame hframe := balanced.opened frame (List.mem_of_mem_drop hframe)
  matched := balanced.matched
  closed frame id hclosed := by
    obtain ⟨hlt, hnot⟩ := balanced.closed frame id hclosed
    exact ⟨hlt, fun hframe => hnot (List.mem_of_mem_drop hframe)⟩
  functions := by
    refine ⟨balanced.functions.1, fun frame id hclosed => ?_⟩
    exact Nat.lt_of_lt_of_le (balanced.functions.2 frame id hclosed) quiet.steady.size
  slots frame place id hplace := quiet.steady.slot? (balanced.slots frame place id hplace)
  recorded id slot hslot := by
    exact balanced.recorded id slot ((quiet.steady.slot?_eq id).symm.trans hslot)
  locals frame id hclosed := by
    have known := balanced.functions.2 frame id hclosed
    exact (quiet.steady.locals known).trans (balanced.locals frame id hclosed)
  room := Nat.le_trans balanced.room quiet.steady.size

/-- Opening a function keeps the balance. -/
theorem Balanced.beginFunction (balanced : l.Balanced) :
    (l.after .beginFunction).Balanced where
  counts := by
    -- no match was made yet under a number that was not given out
    have hnone : l.matchedIn l.opened = 0 := by
      refine List.length_eq_zero_iff.2 (List.eq_nil_iff_forall_not_mem.2 fun id hid => ?_)
      exact absurd (balanced.matched _ _ (mem_matchesIn_iff.1 hid)) (Nat.lt_irrefl _)
    change 0 :: l.builder.frames = l.matchedIn l.opened :: l.frames.map l.matchedIn
    rw [hnone, balanced.counts]
  nodup := by
    refine List.nodup_cons.2 ⟨fun hopen => ?_, balanced.nodup⟩
    exact absurd (balanced.opened _ hopen) (Nat.lt_irrefl _)
  opened frame hframe := by
    rcases List.mem_cons.1 hframe with rfl | hframe
    · exact Nat.lt_succ_self _
    · exact Nat.lt_succ_of_lt (balanced.opened frame hframe)
  matched frame id hmatched := Nat.lt_succ_of_lt (balanced.matched frame id hmatched)
  closed frame id hclosed := by
    obtain ⟨hlt, hnot⟩ := balanced.closed frame id hclosed
    refine ⟨Nat.lt_succ_of_lt hlt, fun hframe => ?_⟩
    rcases List.mem_cons.1 hframe with rfl | hframe
    · exact absurd hlt (Nat.lt_irrefl _)
    · exact hnot hframe
  functions := balanced.functions
  slots := balanced.slots
  recorded := balanced.recorded
  locals := balanced.locals
  room := balanced.room

/-! ### Functions -/

/-- A function that is recorded under a number that is open no more keeps the balance. -/
theorem Balanced.record (balanced : l.Balanced) (hframe : frame < l.opened ∧ frame ∉ l.frames)
    (known : id.raw < l.builder.forest.size) (fresh : ∀ other, (other, id) ∉ l.closed)
    (locals : l.builder.forest.locals id
      = List.replicate (l.matchedIn frame) TypeId.unresolved) :
    Balanced { l with closed := l.closed ++ [(frame, id)] } where
  counts := balanced.counts
  nodup := balanced.nodup
  opened := balanced.opened
  matched := balanced.matched
  closed other id' hclosed := by
    rcases List.mem_append.1 hclosed with hclosed | hclosed
    · exact balanced.closed other id' hclosed
    · cases List.mem_singleton.1 hclosed
      exact hframe
  functions := by
    refine ⟨?_, fun other id' hclosed => ?_⟩
    · rw [List.map_append]
      refine List.nodup_append.2 ⟨balanced.functions.1, List.pairwise_singleton _ _, ?_⟩
      intro old hold new hnew heq
      obtain ⟨entry, hentry, rfl⟩ := List.mem_map.1 hold
      have hid : entry.2 = id := heq.trans (List.mem_singleton.1 hnew)
      exact fresh entry.1 (hid ▸ hentry)
    · rcases List.mem_append.1 hclosed with hclosed | hclosed
      · exact balanced.functions.2 other id' hclosed
      · cases List.mem_singleton.1 hclosed
        exact known
  slots := balanced.slots
  recorded := balanced.recorded
  locals other id' hclosed := by
    rcases List.mem_append.1 hclosed with hclosed | hclosed
    · exact balanced.locals other id' hclosed
    · cases List.mem_singleton.1 hclosed
      exact locals
  room := balanced.room

/-- **A function has as many locals as matches were made in it.**  Making it keeps the balance. -/
theorem Balanced.function {name : NodeId} {returnType body : Option NodeId}
    {parameters : List NodeId} {span : Span} (balanced : l.Balanced)
    (h : function name returnType parameters body span l.builder = .ok id b) :
    ∃ frame, l.frames.head? = some frame
      ∧ b.forest.locals id = List.replicate (l.matchedIn frame) TypeId.unresolved
      ∧ Balanced { l.follow b with closed := l.closed ++ [(frame, id)] } := by
  obtain ⟨count, hcount, steady, rfl, hsize, hlocals⟩ := function_ok h
  have followed := balanced.follow ⟨steady, hcount ▸ List.suffix_cons count b.frames⟩
  have hcounts := balanced.counts
  rw [hcount] at hcounts
  cases hframes : l.frames with
  | nil =>
      rw [hframes] at hcounts
      cases hcounts
  | cons frame frames =>
      rw [hframes, List.map_cons, List.cons.injEq] at hcounts
      obtain ⟨rfl, -⟩ := hcounts
      -- the number is no longer open, since it stood only at the head
      have hleft : (l.follow b).frames = frames := by
        rw [Ledger.follow, hframes, hcount, List.length_cons, Nat.add_sub_cancel_left]
        rfl
      have hnodup := balanced.nodup
      rw [hframes] at hnodup
      refine ⟨frame, rfl, hlocals, followed.record ⟨?_, ?_⟩ ?_ (fun other hclosed => ?_) hlocals⟩
      · exact balanced.opened frame (hframes ▸ List.mem_cons_self)
      · rw [hleft]
        exact (List.nodup_cons.1 hnodup).1
      · change l.builder.forest.size < b.forest.size
        rw [hsize]
        exact Nat.lt_succ_self _
      · exact absurd (balanced.functions.2 other _ hclosed) (Nat.lt_irrefl _)

/-! ### Matches -/

/-- The ledger in which a match is recorded under a number. -/
def meet (l : Ledger) (b : Builder) (frame : Nat) (id : NodeId) : Ledger :=
  { l with builder := b, matched := l.matched ++ [(frame, id)] }

theorem matchesIn_meet_self (l : Ledger) (b : Builder) (frame : Nat) (id : NodeId) :
    (l.meet b frame id).matchesIn frame = l.matchesIn frame ++ [id] := by
  simp [matchesIn, meet]

theorem matchesIn_meet_of_ne {other : Nat} (h : other ≠ frame) (l : Ledger) (b : Builder)
    (id : NodeId) : (l.meet b frame id).matchesIn other = l.matchesIn other := by
  simp [matchesIn, meet, Ne.symm h]

theorem matchedIn_meet_self (l : Ledger) (b : Builder) (frame : Nat) (id : NodeId) :
    (l.meet b frame id).matchedIn frame = l.matchedIn frame + 1 := by
  rw [matchedIn, matchesIn_meet_self, List.length_append]
  rfl

theorem matchedIn_meet_of_ne {other : Nat} (h : other ≠ frame) (l : Ledger) (b : Builder)
    (id : NodeId) : (l.meet b frame id).matchedIn other = l.matchedIn other := by
  rw [matchedIn, matchesIn_meet_of_ne h]
  rfl

/-- The match that is recorded has the last place under its number. -/
theorem getElem?_matchesIn_meet {other place : Nat} {found : NodeId}
    (h : ((l.meet b frame id).matchesIn other)[place]? = some found) :
    (l.matchesIn other)[place]? = some found ∨ place = l.matchedIn frame ∧ found = id := by
  by_cases heq : other = frame
  · subst heq
    rw [matchesIn_meet_self] at h
    rcases Nat.lt_trichotomy place (l.matchedIn other) with hlt | hlast | hgt
    · rw [List.getElem?_append_left hlt] at h
      exact Or.inl h
    · rw [hlast, matchedIn, List.getElem?_append_right (Nat.le_refl _), Nat.sub_self] at h
      exact Or.inr ⟨hlast, (Option.some.inj h).symm⟩
    · rw [List.getElem?_eq_none (by rw [List.length_append]; exact hgt)] at h
      cases h
  · rw [matchesIn_meet_of_ne heq] at h
    exact Or.inl h

/-- A match that is recorded under the innermost number keeps the balance. -/
theorem Balanced.meet {frames others : List Nat} (balanced : l.Balanced)
    (hframes : l.frames = frame :: frames)
    (hcount : l.builder.frames = l.matchedIn frame :: others)
    (hafter : b.frames = (l.matchedIn frame + 1) :: others)
    (hsize : b.forest.size = l.builder.forest.size + 1) (lasts : l.builder.forest.Lasts b.forest)
    (hslot : b.forest.slot? ⟨l.builder.forest.size⟩ = some ⟨l.matchedIn frame⟩) :
    (l.meet b frame ⟨l.builder.forest.size⟩).Balanced := by
  have hnodup := balanced.nodup
  rw [hframes] at hnodup
  refine
    { counts := ?_, nodup := balanced.nodup, opened := balanced.opened
      matched := fun other id hmatched => ?_, closed := balanced.closed
      functions := ⟨balanced.functions.1, ?_⟩
      slots := fun other place id hplace => ?_, recorded := fun id slot hid => ?_
      locals := fun other id hclosed => ?_, room := ?_ }
  · -- only the innermost count goes up, and no other open function has its number
    have hcounts := balanced.counts
    rw [hcount, hframes, List.map_cons, List.cons.injEq] at hcounts
    change b.frames = l.frames.map _
    rw [hafter, hframes, List.map_cons, matchedIn_meet_self, hcounts.2]
    congr 1
    refine List.map_congr_left fun other hmem => (matchedIn_meet_of_ne ?_ l b _).symm
    rintro rfl
    exact (List.nodup_cons.1 hnodup).1 hmem
  · rcases List.mem_append.1 hmatched with hmatched | hmatched
    · exact balanced.matched other id hmatched
    · cases List.mem_singleton.1 hmatched
      exact balanced.opened frame (hframes ▸ List.mem_cons_self)
  · exact fun other id hclosed =>
      Nat.lt_of_lt_of_le (balanced.functions.2 other id hclosed) lasts.size
  · rcases getElem?_matchesIn_meet hplace with hplace | ⟨rfl, rfl⟩
    · exact lasts.slot? (balanced.slots other place id hplace)
    · exact hslot
  · -- a match is an old one, which has kept its slot, or the new one
    obtain ⟨node, hnode, -⟩ := slot?_eq_some_iff.1 hid
    have hlt := lt_size_of_node? hnode
    change id.raw < b.forest.size at hlt
    rw [hsize] at hlt
    rcases Nat.lt_succ_iff_lt_or_eq.1 hlt with hold | hnew
    · obtain ⟨other, hmatched⟩ := balanced.recorded id slot ((lasts.slot?_of_lt hold).trans hid)
      exact ⟨other, List.mem_append_left _ hmatched⟩
    · obtain rfl := NodeId.eq_of_raw hnew
      exact ⟨frame, List.mem_append_right _ (List.mem_singleton.2 rfl)⟩
  · -- a closed function has another number, so its count is what it was
    have hne : other ≠ frame := by
      rintro rfl
      exact (balanced.closed other id hclosed).2 (hframes ▸ List.mem_cons_self)
    rw [matchedIn_meet_of_ne hne]
    have known := balanced.functions.2 other id hclosed
    exact (lasts.locals known).trans (balanced.locals other id hclosed)
  · change (l.matched ++ [_]).length ≤ b.forest.size
    rw [List.length_append, hsize]
    exact Nat.succ_le_succ balanced.room

/-- **The slot of a match is the number of the matches that were made before it in the innermost
open function.**  Making it keeps the balance. -/
theorem Balanced.matching {scrutinee : NodeId} {arms : List NodeId} {span : Span}
    (balanced : l.Balanced) (h : matching scrutinee arms span l.builder = .ok id b) :
    ∃ frame, l.frames.head? = some frame ∧ b.forest.slot? id = some ⟨l.matchedIn frame⟩
      ∧ Balanced { l.follow b with matched := l.matched ++ [(frame, id)] } := by
  obtain ⟨count, others, hcount, hafter, rfl, hsize, lasts, hslot⟩ := matching_ok h
  have hcounts := balanced.counts
  rw [hcount] at hcounts
  cases hframes : l.frames with
  | nil =>
      rw [hframes] at hcounts
      cases hcounts
  | cons frame frames =>
      rw [hframes, List.map_cons, List.cons.injEq] at hcounts
      obtain ⟨rfl, -⟩ := hcounts
      have hsame : l.follow b = { l with builder := b } := by
        rw [Ledger.follow, hcount, hafter, List.length_cons, List.length_cons, Nat.sub_self,
          List.drop_zero]
      refine ⟨frame, rfl, hslot, ?_⟩
      rw [hsame]
      exact balanced.meet hframes hcount hafter hsize lasts hslot

/-! ### Runs -/

/-- **Every step, refused or not, keeps the balance.** -/
theorem Balanced.after (balanced : l.Balanced) (step : Step) : (l.after step).Balanced := by
  by_cases plain : step.IsPlain
  · have followed := balanced.follow (quiet_after_plain plain l.builder)
    cases step with
    | beginFunction | function | matching | parenthesized => exact plain.elim
    | _ => exact followed
  · cases step with
    | beginFunction => exact balanced.beginFunction
    | parenthesized node =>
        refine balanced.follow ?_
        rw [after_eq_stateOf, perform, SyntaxForest.Step.stateOf_map]
        exact quiet_parenthesized node l.builder
    | function name returnType parameters body span =>
        cases hr : Builder.function name returnType parameters body span l.builder with
        | ok id b =>
            obtain ⟨frame, hframe, -, hbalanced⟩ := balanced.function hr
            rw [after_function_ok hr hframe]
            exact hbalanced
        | error refusal b =>
            rw [after_function_error hr]
            exact balanced.follow (function_error hr)
    | matching scrutinee arms span =>
        cases hr : Builder.matching scrutinee arms span l.builder with
        | ok id b =>
            obtain ⟨frame, hframe, -, hbalanced⟩ := balanced.matching hr
            rw [after_matching_ok hr hframe]
            exact hbalanced
        | error refusal b =>
            rw [after_matching_error hr]
            exact balanced.follow (matching_error hr)
    | _ => exact absurd True.intro plain

theorem balanced_start (names : NameTable) (source : String) (file : Option String) :
    (start names source file).Balanced where
  counts := rfl
  nodup := List.Pairwise.nil
  opened _ hframe := nomatch hframe
  matched _ _ hmatched := nomatch hmatched
  closed _ _ hclosed := nomatch hclosed
  functions := ⟨List.Pairwise.nil, fun _ _ hclosed => nomatch hclosed⟩
  slots _ _ _ hplace := nomatch hplace
  recorded id slot hslot := by
    obtain ⟨node, hnode, -⟩ := slot?_eq_some_iff.1 hslot
    exact absurd (lt_size_of_node? hnode) (Nat.not_lt_zero _)
  locals _ _ hclosed := nomatch hclosed
  room := Nat.zero_le _

/-- **A ledger that is kept from the start is balanced.** -/
theorem Kept.balanced (kept : l.Kept) : l.Balanced := by
  induction kept with
  | start _ source file => exact balanced_start _ source file
  | step _ step ih => exact ih.after step
  | @intern l _ text ih =>
      have followed := ih.follow (b := { l.builder with names := (l.builder.names.intern text).2 })
        ⟨Steady.refl _, List.suffix_refl _⟩
      rw [Ledger.follow, Nat.sub_self, List.drop_zero] at followed
      exact followed

/-- No open function has counted more matches than there are nodes. -/
theorem Balanced.count_le_size (balanced : l.Balanced) {count : Nat}
    (h : count ∈ l.builder.frames) : count ≤ l.builder.forest.size := by
  rw [balanced.counts] at h
  obtain ⟨frame, -, rfl⟩ := List.mem_map.1 h
  calc l.matchedIn frame
      _ ≤ l.matched.length := l.matchedIn_le frame
      _ ≤ l.builder.forest.size := balanced.room

theorem Kept.count_le (kept : l.Kept) {count : Nat} (h : count ∈ l.builder.frames) :
    count ≤ maxWord :=
  Nat.le_trans (kept.balanced.count_le_size h) kept.reached.sound.fitted.room

end Ledger

/-- Every builder that comes from the start has a ledger. -/
theorem Reached.exists_ledger {b : Builder} (reached : b.Reached) :
    ∃ l : Ledger, l.Kept ∧ l.builder = b := by
  induction reached with
  | start reached source file => exact ⟨_, .start reached source file, rfl⟩
  | step _ step ih =>
      obtain ⟨l, kept, rfl⟩ := ih
      exact ⟨l.after step, kept.step step, l.builder_after step⟩
  | intern _ text ih =>
      obtain ⟨l, kept, rfl⟩ := ih
      exact ⟨_, kept.intern text, rfl⟩

end Builder

end SyntaxForest
