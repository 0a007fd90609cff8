/-
**What shapes promise is kept.**

Three sorts of nodes are made only if something is true of their contents: a function seen through a
closure has a plain function as its base, a constant owns its value, and a group owns its members,
which all declare its name.  This is looked at once, when the node is made, and only by reading the
nodes and the store of that moment, which its makers may have filled with whatever they like.  Still
it is true for ever: sorts do not change, names do not change, a segment that had entries keeps
them, and what such a node owns it goes on owning, also while documents are regrouped and what was
made for that is dropped again.

Main definitions:

* `Shape.Rule` — what the contents of a node promise;
* `Forest.Ruled` — a forest all of whose nodes keep their promises;
* `Forest.Made` — a forest that changes have made, whatever was handed over.

Main results:

* `Shape.Rule.evolves` — **a promise that is kept once is kept for ever**;
* `Forest.Admits.rule` — a node keeps its promise when it is made;
* `Forest.Ruled.of_size_le`, `Forest.Ruled.add` — promises are kept as long as no node is made, and
  when one is made;
* `Forest.rules_of_changes` — **after any changes all promises are kept.**
-/

import SyntaxForest.Proofs.Forest.Evolution

set_option relaxedAutoImplicit false
set_option autoImplicit false

namespace SyntaxForest

/-- What the contents of the node of a number promise. -/
def Shape.Rule (f : Forest) (id : NodeId) : Shape → Prop
  | .specialized base _ => f.tag? base = some .function
  | .constDirective _ _ value _ => f.parent? value = some id
  | .overloads name members =>
      f.list members ≠ [] ∧ ∀ member ∈ f.list members, f.tag? member = some .funDirective
        ∧ f.parent? member = some id ∧ f.declaredName member = .ok name
  | _ => True

/-- Contents that may change promise nothing. -/
theorem Shape.rule_of_not_lasting {f : Forest} {id : NodeId} {shape : Shape}
    (h : shape.isLasting = false) : shape.Rule f id := by
  cases shape with
  | document directives => exact True.intro
  | literal value => exact True.intro
  | _ => cases h

variable {f g : Forest} {id root : NodeId} {node : Node} {shape : Shape}

open Forest

/-- **A promise that is kept once is kept for ever.** -/
theorem Shape.Rule.evolves (rule : shape.Rule f id) (here : f.shape? id = some shape)
    (evolves : f.Evolves g) : shape.Rule g id := by
  obtain ⟨node, hnode, hshape⟩ := shape?_eq_some_iff.1 here
  have htag : f.tag? id = some shape.tag := by rw [tag?_of_node? hnode, hshape]
  cases shape with
  | specialized base closure => exact evolves.tag? rule
  | constDirective name type value exported => exact evolves.owned rule htag Tag.noConfusion
  | overloads name members =>
      obtain ⟨full, hmembers⟩ := rule
      have hlist := evolves.list_eq full
      refine ⟨by rw [hlist]; exact full, fun member hm => ?_⟩
      rw [hlist] at hm
      obtain ⟨hfun, hparent, hname⟩ := hmembers member hm
      exact ⟨evolves.tag? hfun, evolves.owned hparent htag Tag.noConfusion,
        evolves.abides.declaredName hname⟩
  | _ => exact True.intro

namespace Forest

/-! ### Promises when a node is made -/

/-- A value that is written is owned by the constant that is made for it. -/
theorem Admits.parent?_value {name type value : NodeId} {exported : Bool} {span : Span}
    {donor : Option NodeId} (admits : f.Admits (.constDirective name type value exported) span) :
    (f.add (.constDirective name type value exported) span donor).parent? value
      = some ⟨f.size⟩ := by
  have present : value.isPresent = true := by
    have contents := admits.contents
    rw [checkContents] at contents
    split at contents
    · assumption
    · cases contents
  refine parent?_add_of_mem admits (List.mem_append_right _ ?_)
  rw [NodeId.entries, if_pos present]
  exact List.mem_singleton_self value

/-- **A node keeps its promise when it is made.** -/
theorem Admits.rule {span : Span} (admits : f.Admits shape span) (donor : Option NodeId) :
    shape.Rule (f.add shape span donor) ⟨f.size⟩ := by
  have evolves : f.Evolves (f.add shape span donor) := Evolves.add admits donor
  cases shape with
  | specialized base closure =>
      exact evolves.tag? (checkContents_specialized_iff.1 admits.contents)
  | constDirective name type value exported => exact admits.parent?_value
  | overloads name members =>
      have contents := admits.contents
      rw [checkContents] at contents
      split at contents
      · cases contents
      · next full =>
          have hnames := checkMembers_eq_ok_iff.1 contents
          refine ⟨fun h => full (List.isEmpty_iff.2 h), fun member hm => ?_⟩
          have hname := hnames member hm
          obtain ⟨node, declared, exported, hnode, hshape⟩ := funDirective_of_declaredName hname
          refine ⟨evolves.tag? ?_, parent?_add_of_mem admits hm, evolves.abides.declaredName hname⟩
          rw [tag?_of_node? hnode, hshape]
          rfl
  | _ => exact True.intro

/-! ### Promises along moves -/

/-- All nodes keep what their contents promise. -/
def Ruled (f : Forest) : Prop := ∀ id shape, f.shape? id = some shape → shape.Rule f id

namespace Ruled

theorem empty : Ruled empty := fun id shape h => by
  obtain ⟨node, hnode, -⟩ := shape?_eq_some_iff.1 h
  exact absurd (lt_size_of_node? hnode) (Nat.not_lt_zero _)

/-- The nodes of before go on keeping their promises. -/
theorem of_lt (ruled : f.Ruled) (evolves : f.Evolves g) (here : g.shape? id = some shape)
    (lt : id.raw < f.size) : shape.Rule g id := by
  obtain ⟨old, hold⟩ := node?_isSome_iff.2 lt
  obtain ⟨later, hlater, becomes⟩ := evolves.node hold
  obtain rfl : later.shape = shape :=
    Option.some.inj ((shape?_of_node? hlater).symm.trans here)
  cases lasting : old.shape.isLasting with
  | true =>
      rw [becomes.shape lasting]
      have hshape := shape?_of_node? hold
      exact (ruled id _ hshape).evolves hshape evolves
  | false =>
      refine Shape.rule_of_not_lasting ?_
      rw [Shape.isLasting_congr becomes.tag, lasting]

theorem of_size_le (ruled : f.Ruled) (evolves : f.Evolves g) (le : g.size ≤ f.size) :
    g.Ruled := fun id shape here => by
  obtain ⟨node, hnode, -⟩ := shape?_eq_some_iff.1 here
  exact ruled.of_lt evolves here (Nat.lt_of_lt_of_le (lt_size_of_node? hnode) le)

/-- A node that is made keeps its promise. -/
theorem add {span : Span} (donor : Option NodeId) (ruled : f.Ruled) (admits : f.Admits shape span) :
    (f.add shape span donor).Ruled := by
  intro id later here
  obtain ⟨node, hnode, rfl⟩ := shape?_eq_some_iff.1 here
  rcases admits.node?_add_cases hnode with ⟨old, hold, -⟩ | ⟨rfl, rfl⟩
  · exact ruled.of_lt (Evolves.add admits donor) here (lt_size_of_node? hold)
  · exact admits.rule donor

/-- **Moves keep promises.** -/
theorem moves (ruled : f.Ruled) (moves : f.Moves g) : g.Ruled :=
  moves.preserves ruled of_size_le fun ruled admits _ => ruled.add _ admits

end Ruled

/-! ### Promises along changes -/

open Change

/-- A forest that changes have made of the empty one, whatever was handed over. -/
def Made (f : Forest) : Prop := ∃ changes, f = runAll empty changes

theorem Made.ruled (made : f.Made) : f.Ruled := by
  obtain ⟨changes, rfl⟩ := made
  exact Ruled.empty.moves (moves_runAll empty changes)

/-- **After any changes all promises are kept, and for ever.**  Whatever changes have made a forest,
and whatever contents, node numbers and segments were handed over, all its nodes keep what their
contents promise.  After any further changes a node that promises something has the same contents
and keeps the same promise, and if it is a group it has the same members. -/
theorem rules_of_changes (made : f.Made) (later : List Change) :
    (∀ id shape, f.shape? id = some shape → shape.Rule f id)
      ∧ ∀ id shape, f.shape? id = some shape → shape.isLasting = true →
        (runAll f later).shape? id = some shape ∧ shape.Rule (runAll f later) id
          ∧ ∀ name members, shape = .overloads name members →
              (runAll f later).list members = f.list members := by
  refine ⟨made.ruled, fun id shape here lasting => ?_⟩
  have rule := made.ruled id shape here
  have evolves := evolves_runAll f later
  refine ⟨evolves.abides.shape? here lasting, rule.evolves here evolves, ?_⟩
  rintro name members rfl
  exact evolves.list_eq rule.1

/-- A group keeps its members when its document is regrouped again. -/
theorem rules_of_regrouped_declarations :
    let f := runAll empty (twoDeclarations ++ [.regroup ⟨8⟩])
    f.shape? ⟨9⟩ = some (.overloads ⟨1⟩ ⟨3, 2⟩) ∧ f.list ⟨3, 2⟩ = [⟨2⟩, ⟨5⟩]
      ∧ (runAll f [.regroup ⟨8⟩]).shape? ⟨9⟩ = some (.overloads ⟨1⟩ ⟨3, 2⟩)
      ∧ (runAll f [.regroup ⟨8⟩]).list ⟨3, 2⟩ = [⟨2⟩, ⟨5⟩]
      ∧ (runAll f [.regroup ⟨8⟩]).parent? ⟨5⟩ = some ⟨9⟩ := by
  intro f
  have made : f.Made := ⟨_, rfl⟩
  have here : f.shape? ⟨9⟩ = some (.overloads ⟨1⟩ ⟨3, 2⟩) := by decide +kernel
  have members : f.list ⟨3, 2⟩ = [⟨2⟩, ⟨5⟩] := by decide +kernel
  obtain ⟨stays, rule, same⟩ := (rules_of_changes made [.regroup ⟨8⟩]).2 _ _ here rfl
  have list := (same _ _ rfl).trans members
  exact ⟨here, members, stays, list, (rule.2 ⟨5⟩ (by rw [list]; simp)).2.1⟩

end Forest

end SyntaxForest
