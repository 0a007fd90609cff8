/-
**Local variables are never lost.**

After a forest is made, passes add local variables to its functions and write their types, and the
declarations of a document may be regrouped.  Regrouping exchanges the shapes of nodes and may drop
nodes again, so it is not obvious that what is recorded of a function survives it.  It does: no
change, refused or not, leaves a function with fewer local variables.  Since a variable that is
added takes the number of those that there are, it is none of those that there were at any time
before.

Main definitions:

* `Forest.KeepsLocals` — no function has fewer local variables than before.

Main results:

* `Forest.Evolves.keepsLocals` — a forest that evolves keeps them;
* `Forest.keepsLocals_runAll` — **no changes lose a local variable**;
* `Forest.raw_of_allocateLocal` — a variable that is added takes the number of those there are;
* `Forest.length_locals_le_of_allocateLocal` — **whenever it is added, it is a new one.**
-/

import SyntaxForest.Proofs.Forest.Evolution

set_option relaxedAutoImplicit false
set_option autoImplicit false

namespace SyntaxForest

namespace Forest

/-- No function has fewer local variables than before. -/
def KeepsLocals (f g : Forest) : Prop := ∀ id, (f.locals id).length ≤ (g.locals id).length

variable {f g : Forest}

/-- Only the nodes that exist have local variables to lose, and those keep them. -/
theorem Evolves.keepsLocals (evolves : f.Evolves g) : f.KeepsLocals g := by
  intro id
  cases hnode : f.node? id with
  | none =>
      rw [locals, info?, hnode]
      exact Nat.zero_le _
  | some node =>
      obtain ⟨later, hlater, becomes⟩ := evolves.node hnode
      rw [locals_of_node? hnode, locals_of_node? hlater]
      exact becomes.locals

/-- **No changes lose a local variable**, whatever they are and whether they are refused or not. -/
theorem keepsLocals_runAll (f : Forest) (changes : List Change) :
    f.KeepsLocals (Change.runAll f changes) := (evolves_runAll f changes).keepsLocals

/-! ### New local variables -/

/-- A variable that is added takes the number of those that there are. -/
theorem raw_of_allocateLocal {function : NodeId} {type : TypeId} {slot : LocalSlot}
    (h : (Edit.allocateLocal function type).run f = .ok (.slot slot) g) :
    slot.raw = (f.locals function).length := by
  obtain ⟨answer, hanswer, heq⟩ := Step.map_eq_ok_iff.1 h
  cases heq
  unfold decorateWith at hanswer
  split at hanswer
  · cases hanswer
  · next node hnode =>
      split at hanswer
      · cases hanswer
      · next answer later hlater =>
          cases hanswer
          obtain ⟨info, hinfo, hplaced⟩ := Question.bind_eq_ok_iff.1 hlater
          obtain ⟨place, hplace, hdone⟩ := Question.bind_eq_ok_iff.1 hplaced
          cases hdone
          rw [locals_of_node? hnode, Node.locals_of_info (Node.requireInfo_eq_ok_iff.1 hinfo)]
          exact (nextPlace_eq_ok_iff.1 hplace).2

/-- **A variable that is added after any changes comes after those that there were before.** -/
theorem length_locals_le_of_allocateLocal {changes : List Change} {function : NodeId}
    {type : TypeId} {slot : LocalSlot}
    (h : (Edit.allocateLocal function type).run (Change.runAll f changes) = .ok (.slot slot) g) :
    (f.locals function).length ≤ slot.raw := by
  rw [raw_of_allocateLocal h]
  exact keepsLocals_runAll f changes function

end Forest

end SyntaxForest
