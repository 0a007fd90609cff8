/-
**The local variables of matches.**

A match asks for its local variable before the function that will own it exists, and functions may
be opened and closed between two matches of one function.  A step that is refused asks for nothing,
but it may close a function.  So whether two matches share a variable is a question about the whole
run.  The answer is read off its ledger: matches that were made under one number have the slots `0`,
`1`, `2` and so on, and the function that closes the number has that many local variables.

In a document only the owners of a node are left to tell where a match belongs.  A match is placed
if the nearest function above it is the one that closed the number under which it was made.  The
placed matches of one function have variables of their own, all of which the function has, and no
variable that is added to the function later is one of them.

Main definitions:

* `Builder.Ledger.Placed` — a match that stands in the function that closed its number.

Main results:

* `Builder.Ledger.Balanced.slot_lt`, `Builder.Ledger.Balanced.slot_ne` — the slots of placed
  matches;
* `Builder.Ledger.locals_of_kept` — **each match has a local variable of its own.**
-/

import SyntaxForest.Proofs.Builder.Ledger
import SyntaxForest.Proofs.Forest.Locals

set_option relaxedAutoImplicit false
set_option autoImplicit false

namespace SyntaxForest

open Forest

namespace Builder

namespace Ledger

/-- The nearest function above a match is the one that closed the number under which the match was
made. -/
def Placed (l : Ledger) (f : Forest) (id function : NodeId) : Prop :=
  ∃ frame, (frame, id) ∈ l.matched ∧ (frame, function) ∈ l.closed
    ∧ f.enclosingFunction id = .ok (some function)

variable {l : Ledger} {f : Forest} {id other function : NodeId} {slot otherSlot : LocalSlot}

/-! ### Placed matches -/

/-- The slot of a placed match is a local variable of its function. -/
theorem Balanced.slot_lt (balanced : l.Balanced) (steady : l.builder.forest.Steady f)
    (placed : l.Placed f id function) (hslot : f.slot? id = some slot) :
    slot.raw < (f.locals function).length := by
  obtain ⟨frame, hmatched, hclosed, -⟩ := placed
  obtain ⟨place, hplace, hsame⟩ := balanced.slot_of_matched hmatched
  rw [steady.slot?_eq, hsame] at hslot
  cases hslot
  rw [steady.locals (balanced.functions.2 frame function hclosed),
    balanced.locals frame function hclosed, List.length_replicate]
  exact (List.getElem?_eq_some_iff.1 hplace).1

/-- Placed matches of one function have different slots. -/
theorem Balanced.slot_ne (balanced : l.Balanced) (steady : l.builder.forest.Steady f)
    (placed : l.Placed f id function) (hslot : f.slot? id = some slot)
    (placed' : l.Placed f other function) (hslot' : f.slot? other = some otherSlot)
    (different : other ≠ id) : otherSlot ≠ slot := by
  obtain ⟨frame, hmatched, hclosed, -⟩ := placed
  obtain ⟨otherFrame, hmatched', hclosed', -⟩ := placed'
  -- a function closes one number only, so both were made under it
  obtain rfl := balanced.frame_unique hclosed hclosed'
  obtain ⟨place, hplace, hsame⟩ := balanced.slot_of_matched hmatched
  obtain ⟨place', hplace', hsame'⟩ := balanced.slot_of_matched hmatched'
  rw [steady.slot?_eq, hsame] at hslot
  rw [steady.slot?_eq, hsame'] at hslot'
  cases hslot
  cases hslot'
  rintro heq
  cases heq
  exact different (Option.some.inj (hplace'.symm.trans hplace))

/-- The document that is handed over has the nodes of the builder and a root, which is no match. -/
theorem steady_finish {b : Builder} {directives : List NodeId} {d : Document}
    (handed : b.finish directives = .ok d) : b.forest.Steady d.forest := by
  obtain ⟨id, c, hroot, rfl⟩ := finish_eq_ok_iff.1 handed
  have hquiet := carries_quiet.makes (.root directives) b
  rw [hroot] at hquiet
  exact hquiet.steady

/-! ### Runs -/

/-- **Each match has a local variable of its own.**  However functions are nested and whatever
steps were refused:

* a match that is made gets as its slot the number of the matches that were made before it while
  the same function was the innermost open one;
* a function that is made closes the innermost open one, and it has as many local variables as
  matches were made in that, all without a type;
* the counts of the open functions are 32-bit numbers;
* in the document that is handed over, let the nearest function above a match be the one that
  closed the number under which the match was made.  Then the slot of the match is a local variable
  of that function, any other such match of the function has a different one, and whatever changes
  are made to the document, a variable that is added to the function afterwards is a different one
  too. -/
theorem locals_of_kept (kept : l.Kept) :
    (∀ scrutinee arms span id c, matching scrutinee arms span l.builder = .ok id c →
        ∃ frame, l.frames.head? = some frame ∧ c.forest.slot? id = some ⟨l.matchedIn frame⟩)
      ∧ (∀ name returnType parameters body span id c,
        Builder.function name returnType parameters body span l.builder = .ok id c →
          ∃ frame, l.frames.head? = some frame ∧ c.frames = l.builder.frames.tail
            ∧ c.forest.locals id = List.replicate (l.matchedIn frame) TypeId.unresolved)
      ∧ (∀ count ∈ l.builder.frames, count ≤ maxWord)
      ∧ ∀ directives d, l.builder.finish directives = .ok d →
        ∀ id function slot, l.Placed d.forest id function → d.forest.slot? id = some slot →
          slot.raw < (d.forest.locals function).length
            ∧ (∀ other otherSlot, l.Placed d.forest other function →
              d.forest.slot? other = some otherSlot → other ≠ id → otherSlot ≠ slot)
            ∧ ∀ changes type added g,
              (Edit.allocateLocal function type).run (Change.runAll d.forest changes)
                = .ok (.slot added) g → added ≠ slot := by
  have balanced := kept.balanced
  refine ⟨fun scrutinee arms span id c h => ?_,
    fun name returnType parameters body span id c h => ?_, fun count hcount => kept.count_le hcount,
    fun directives d handed id function slot placed hslot => ?_⟩
  · obtain ⟨frame, hframe, hsame, -⟩ := balanced.matching h
    exact ⟨frame, hframe, hsame⟩
  · obtain ⟨frame, hframe, hlocals, -⟩ := balanced.function h
    obtain ⟨count, hcount, -⟩ := function_ok h
    exact ⟨frame, hframe, by rw [hcount, List.tail_cons], hlocals⟩
  · have steady := steady_finish handed
    have hlt := balanced.slot_lt steady placed hslot
    refine ⟨hlt, fun other otherSlot placed' hslot' different =>
      balanced.slot_ne steady placed hslot placed' hslot' different,
      fun changes type added g h heq => ?_⟩
    -- a new slot stands behind all that were reserved
    have hle := length_locals_le_of_allocateLocal h
    rw [heq] at hle
    exact absurd hlt (Nat.not_lt.2 hle)

/-- A function inside another, both with matches, and a match between them that is refused. -/
def nested : Ledger :=
  runAll (start NameTable.fresh "" none)
    [ .beginFunction,
      .literal .null ⟨0, 1⟩, .literal .null ⟨1, 2⟩, .defaultArm ⟨1⟩ ⟨1, 2⟩,
      .matching ⟨0⟩ [⟨2⟩] ⟨0, 2⟩,
      .beginFunction,
      .literal .null ⟨2, 3⟩, .literal .null ⟨3, 4⟩, .defaultArm ⟨5⟩ ⟨3, 4⟩,
      .matching ⟨4⟩ [⟨6⟩] ⟨2, 4⟩,
      .matching ⟨4⟩ [⟨6⟩] ⟨2, 4⟩,
      .literal .null ⟨4, 5⟩, .literal .null ⟨5, 6⟩, .defaultArm ⟨9⟩ ⟨5, 6⟩,
      .matching ⟨8⟩ [⟨10⟩] ⟨4, 6⟩,
      .name "h" ⟨2, 6⟩, .variableReference ⟨12⟩ ⟨2, 6⟩, .call ⟨13⟩ [⟨7⟩, ⟨11⟩] false ⟨2, 6⟩,
      .name "inner" ⟨2, 6⟩, .function ⟨15⟩ none [] (some ⟨14⟩) ⟨2, 6⟩,
      .literal .null ⟨6, 7⟩, .literal .null ⟨7, 8⟩, .defaultArm ⟨18⟩ ⟨7, 8⟩,
      .matching ⟨17⟩ [⟨19⟩] ⟨6, 8⟩,
      .name "g" ⟨0, 8⟩, .variableReference ⟨21⟩ ⟨0, 8⟩,
      .call ⟨22⟩ [⟨3⟩, ⟨16⟩, ⟨20⟩] false ⟨0, 8⟩,
      .name "outer" ⟨0, 8⟩, .function ⟨24⟩ none [] (some ⟨23⟩) ⟨0, 8⟩,
      .funDirective ⟨25⟩ false ⟨0, 8⟩ ]

/-- The document over the outer function. -/
def nestedDocument : Document := (nested.builder.finish [⟨26⟩]).toOption.getD default

/-- The matches of the outer function have the slots `0` and `1`, on both sides of the inner
function, and a variable that is added after the declarations were regrouped has neither. -/
theorem locals_nested :
    nested.Kept ∧ nested.builder.finish [⟨26⟩] = .ok nestedDocument
      ∧ nested.Placed nestedDocument.forest ⟨3⟩ ⟨25⟩
      ∧ nested.Placed nestedDocument.forest ⟨20⟩ ⟨25⟩
      ∧ nestedDocument.forest.slot? ⟨3⟩ = some ⟨0⟩ ∧ nestedDocument.forest.slot? ⟨20⟩ = some ⟨1⟩
      ∧ 1 < (nestedDocument.forest.locals ⟨25⟩).length
      ∧ ∀ type added g, (Edit.allocateLocal ⟨25⟩ type).run
        (Change.runAll nestedDocument.forest [.regroup nestedDocument.root])
          = .ok (.slot added) g → added ≠ ⟨0⟩ ∧ added ≠ ⟨1⟩ := by
  have kept : nested.Kept := (Kept.start .fresh "" none).runAll _
  have handed : nested.builder.finish [⟨26⟩] = .ok nestedDocument :=
    Question.eq_ok_of_isOk (by decide +kernel)
  have first : nested.Placed nestedDocument.forest ⟨3⟩ ⟨25⟩ :=
    ⟨0, by decide +kernel, by decide +kernel, by decide +kernel⟩
  have second : nested.Placed nestedDocument.forest ⟨20⟩ ⟨25⟩ :=
    ⟨0, by decide +kernel, by decide +kernel, by decide +kernel⟩
  have hfirst : nestedDocument.forest.slot? ⟨3⟩ = some ⟨0⟩ := by decide +kernel
  have hsecond : nestedDocument.forest.slot? ⟨20⟩ = some ⟨1⟩ := by decide +kernel
  have own := (locals_of_kept kept).2.2.2 [⟨26⟩] nestedDocument handed
  refine ⟨kept, handed, first, second, hfirst, hsecond, (own _ _ _ second hsecond).1,
    fun type added g h => ⟨?_, ?_⟩⟩
  · exact (own _ _ _ first hfirst).2.2 _ type added g h
  · exact (own _ _ _ second hsecond).2.2 _ type added g h

end Ledger

end Builder

end SyntaxForest
