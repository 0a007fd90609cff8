/-
**Where new nodes stand.**

Nodes are numbered by their places, so a new node has the number that comes after those of the
nodes that were there.  A step that answers the nodes that it makes says so: the numbers after it
are the numbers before it, and then those of its answer in their order.  A step that is refused
makes no node, although a sequence may be left in the store.  Regrouping a document makes several
nodes, and none at all when it fails, because it drops what it has made.

Main definitions:

* `Step.Enlists` — a step that appends what it answers, or nothing if it is refused;
* `Edit.Answer.made` — the node among the answer of an edit.

Main results:

* `Step.Enlists.bind`, `Step.Enlists.before` — a step after one that makes nothing, and before one;
* `Edit.enlists_run` — **an edit appends the node that it answers**;
* `Document.enlists_groupOverloads` — **grouping appends the groups that it answers.**
-/

import SyntaxForest.Proofs.Forest.Contents

set_option relaxedAutoImplicit false
set_option autoImplicit false

namespace SyntaxForest

/-! ### Steps that append -/

/-- A step that appends what it has made to what was there, or nothing if it is refused. -/
def Step.Enlists {ε σ α : Type} (ids : σ → List NodeId) (made : α → List NodeId)
    (step : EStateM ε σ α) : Prop :=
  ∀ s : σ, match step s with
    | .ok answer t => ids t = ids s ++ made answer
    | .error _ t => ids t = ids s

namespace Step.Enlists

variable {ε σ α β : Type} {ids : σ → List NodeId} {made : α → List NodeId}
  {made' : β → List NodeId} {step : EStateM ε σ α} {next : α → EStateM ε σ β} {s t : σ}

theorem of_ok (enlists : Enlists ids made step) {answer : α} (h : step s = .ok answer t) :
    ids t = ids s ++ made answer := by
  have henlists := enlists s
  rwa [h] at henlists

theorem of_error (enlists : Enlists ids made step) {e : ε} (h : step s = .error e t) :
    ids t = ids s := by
  have henlists := enlists s
  rwa [h] at henlists

theorem of_cases (done : ∀ {s answer t}, step s = .ok answer t → ids t = ids s ++ made answer)
    (refused : ∀ {s e t}, step s = .error e t → ids t = ids s) : Enlists ids made step := by
  intro s
  split
  · next h => exact done h
  · next h => exact refused h

/-- A step that makes nothing. -/
theorem of_same (same : ∀ s, ids (stateOf (step s)) = ids s) :
    Enlists ids (fun _ => []) step := by
  refine of_cases (fun {s answer t} h => ?_) fun {s e t} h => ?_
  · have hsame := same s
    rw [h] at hsame
    rw [List.append_nil]
    exact hsame
  · have hsame := same s
    rw [h] at hsame
    exact hsame

/-- **A step after one that makes nothing.** -/
theorem bind (first : Enlists ids (fun _ => []) step)
    (second : ∀ answer, Enlists ids made' (next answer)) : Enlists ids made' (step >>= next) := by
  refine of_cases (fun {s answer t} h => ?_) fun {s e t} h => ?_
  · obtain ⟨between, u, hstep, hnext⟩ := Step.bind_eq_ok_iff.1 h
    rw [(second between).of_ok hnext, first.of_ok hstep, List.append_nil]
  · rcases Step.bind_eq_error_iff.1 h with hstep | ⟨between, u, hstep, hnext⟩
    · exact first.of_error hstep
    · rw [(second between).of_error hnext, first.of_ok hstep, List.append_nil]

/-- A step before one that makes nothing, answers the same and is never refused. -/
theorem before {next : α → EStateM ε σ α} (first : Enlists ids made step)
    (later : ∀ {s answer t}, step s = .ok answer t →
      ∃ u, next answer t = .ok answer u ∧ ids u = ids t) : Enlists ids made (step >>= next) := by
  refine of_cases (fun {s answer v} h => ?_) fun {s e v} h => ?_
  · obtain ⟨found, t, hstep, hnext⟩ := Step.bind_eq_ok_iff.1 h
    obtain ⟨u, hu, hids⟩ := later hstep
    rw [hu] at hnext
    cases hnext
    rw [hids, first.of_ok hstep]
  · rcases Step.bind_eq_error_iff.1 h with hstep | ⟨found, t, hstep, hnext⟩
    · exact first.of_error hstep
    · obtain ⟨u, hu, -⟩ := later hstep
      rw [hu] at hnext
      cases hnext

/-- What is made of the answer says as much. -/
theorem map {make : α → β} (enlists : Enlists ids made step)
    (same : ∀ answer, made' (make answer) = made answer) : Enlists ids made' (make <$> step) := by
  refine of_cases (fun {s answer t} h => ?_) fun {s e t} h => ?_
  · obtain ⟨found, hstep, rfl⟩ := Step.map_eq_ok_iff.1 h
    rw [enlists.of_ok hstep, same]
  · exact enlists.of_error (Step.map_eq_error_iff.1 h)

end Step.Enlists

open Step

namespace Forest

variable {f g : Forest} {root : NodeId} {listed groups : List NodeId}
  {members : Name → List NodeId} {fates : List Fate} {former : Segment} {refusal : Refusal}

theorem ids_of_size (size : g.size = f.size) : g.ids = f.ids := by
  rw [ids, ids, size]

theorem ids_add (f : Forest) (shape : Shape) (span : Span) (donor : Option NodeId) :
    (f.add shape span donor).ids = f.ids ++ [⟨f.size⟩] := by
  rw [ids, ids, size_add, List.range_succ, List.map_append, List.map_singleton]

/-! ### Makers of nodes -/

theorem enlists_insert (shape : Shape) (span : Span) :
    Enlists ids (fun id => [id]) (insert shape span) := by
  refine .of_cases (fun {f id g} h => ?_) fun {f refusal g} h => ?_
  · obtain ⟨-, rfl, rfl⟩ := insert_eq_ok_iff.1 h
    exact ids_add f shape span none
  · rw [insert_refused h]

theorem enlists_insertDerived (shape : Shape) (donor : NodeId) :
    Enlists ids (fun id => [id]) (insertDerived shape donor) := by
  refine .of_cases (fun {f id g} h => ?_) fun {f refusal g} h => ?_
  · obtain ⟨node, -, -, rfl, rfl⟩ := insertDerived_eq_ok_iff.1 h
    exact ids_add f shape node.span (some donor)
  · rw [insertDerived_refused h]

theorem enlists_storeList (kept : List NodeId) (what : String) :
    Enlists ids (fun _ => []) (storeList kept what) := by
  refine .of_cases (fun {f segment g} h => ?_) fun {f refusal g} h => ?_
  · obtain ⟨rfl, -⟩ := storeList_eq_ok_iff.1 h
    rw [List.append_nil]
    exact ids_of_size (size_keep f kept)
  · rw [storeList_refused h]

theorem enlists_groupFunctions (name : Name) (members : List NodeId) :
    Enlists ids (fun id => [id]) (groupFunctions name members) := by
  cases members with
  | nil => exact .of_cases (fun h => nomatch h) fun h => by cases h; rfl
  | cons first rest =>
      exact (enlists_storeList _ _).bind fun segment => enlists_insertDerived _ first

/-- Decorations make no nodes. -/
theorem enlists_decorateWith {α : Type} (id : NodeId)
    (rule : Node → Except Refusal (α × Node)) :
    Enlists ids (fun _ => []) (decorateWith id rule) := by
  refine .of_same fun f => ids_of_size ?_
  unfold decorateWith
  split
  · rfl
  · split
    · rfl
    · exact size_replace f id _

theorem enlists_decorate (id : NodeId) (rule : Node → Except Refusal Node) :
    Enlists ids (fun _ => []) (decorate id rule) := enlists_decorateWith id _

end Forest

/-! ### Edits -/

/-- The nodes that an edit has made, by its answer. -/
def Edit.Answer.made : Edit.Answer → List NodeId
  | .node id => [id]
  | _ => []

open Forest in
/-- **An edit appends the node that it answers,** if any, and nothing if it is refused. -/
theorem Edit.enlists_run (edit : Edit) : Enlists ids Answer.made edit.run := by
  cases edit with
  | insert shape span => exact (enlists_insert shape span).map fun _ => rfl
  | insertDerived shape donor => exact (enlists_insertDerived shape donor).map fun _ => rfl
  | storeList kept what => exact (enlists_storeList kept what).map fun _ => rfl
  | specialize base closure => exact (enlists_insertDerived _ base).map fun _ => rfl
  | groupFunctions name members => exact (enlists_groupFunctions name members).map fun _ => rfl
  | allocateLocal function type => exact (enlists_decorateWith function _).map fun _ => rfl
  | _ => exact (enlists_decorate _ _).map fun _ => rfl

/-! ### Groups -/

namespace Forest

variable {f g : Forest} {root : NodeId} {listed groups : List NodeId}
  {members : Name → List NodeId} {fates : List Fate} {former : Segment} {refusal : Refusal}

/-- The groups that are made on the way through the directives stand in their order. -/
theorem ids_of_regroupEach (run : regroupEach members listed f = .ok fates g) :
    g.ids = f.ids ++ Fate.groups fates := by
  induction listed generalizing f fates with
  | nil =>
      cases run
      exact (List.append_nil _).symm
  | cons directive rest ih =>
      obtain ⟨fate, between, hfate, hnext⟩ := Step.bind_eq_ok_iff.1 run
      obtain ⟨later, _, hlater, hdone⟩ := Step.bind_eq_ok_iff.1 hnext
      cases hdone
      rw [ih hlater]
      rcases regroupOne_ok hfate with
        ⟨rfl, rfl, -⟩ | ⟨name, -, -, ⟨rfl, rfl, -⟩ | ⟨id, rfl, hgroup⟩⟩
      · rfl
      · rfl
      · rw [(enlists_groupFunctions _ _).of_ok hgroup, List.append_assoc]
        rfl

theorem ids_of_replaceShape {shape : Shape} (h : replaceShape root shape f = .ok () g) :
    g.ids = f.ids := by
  obtain ⟨node, -, -, -, rfl⟩ := replaceShape_eq_ok_iff.1 h
  exact ids_of_size (size_reshape f root node shape)

theorem ids_of_regroup (run : regroup root listed members f = .ok groups g) :
    g.ids = f.ids ++ groups := by
  obtain ⟨_, given, hgiven, hnext⟩ := Step.bind_eq_ok_iff.1 run
  obtain ⟨fates, passed, hfates, hnext⟩ := Step.bind_eq_ok_iff.1 hnext
  obtain ⟨segment, kept, hkept, hnext⟩ := Step.bind_eq_ok_iff.1 hnext
  obtain ⟨_, last, hlast, hdone⟩ := Step.bind_eq_ok_iff.1 hnext
  cases hdone
  have hstored := (enlists_storeList _ _).of_ok (toAttempt_eq_ok_iff.1 hkept)
  rw [ids_of_replaceShape hlast, hstored, List.append_nil, ids_of_regroupEach hfates,
    ids_of_replaceShape hgiven]

/-- A regrouping that is refused drops the groups that it has made. -/
theorem ids_of_refused (document : f.directivesOf root = .ok former)
    (run : regroupOrRestore root former members f = .error (.refused refusal) g) :
    g.ids = f.ids := by
  obtain ⟨back, -, hsize, hs | ⟨failure, hs⟩⟩ := regroupOrRestore_refused document run
  · rw [ids_of_replaceShape hs]
    exact ids_of_size hsize
  · rw [(replaceShape_error hs).1]
    exact ids_of_size hsize

/-- A document that is regrouped has its groups after the other nodes. -/
theorem ids_of_regroupDocument (run : regroupDocument root f = .ok groups g) :
    g.ids = f.ids ++ groups := by
  rcases regroupDocument_cases root f with ⟨found, hr⟩ | ⟨former, -, ⟨failure, -, hr⟩ |
    ⟨declared, -, hr⟩⟩ <;> rw [hr] at run
  · cases run
  · cases run
  · split at run
    · unfold regroupOrRestore at run
      split at run
      · split at run <;> cases run
      · exact ids_of_regroup run
    · cases run
      exact (List.append_nil _).symm

/-- One that is refused has no more nodes than before. -/
theorem ids_of_regroupDocument_refused
    (run : regroupDocument root f = .error (.refused refusal) g) : g.ids = f.ids := by
  rcases regroupDocument_cases root f with ⟨found, hr⟩ | ⟨former, document, ⟨failure, -, hr⟩ |
    ⟨declared, -, hr⟩⟩ <;> rw [hr] at run
  · cases run
    rfl
  · cases run
    rfl
  · split at run
    · exact ids_of_refused document run
    · cases run

end Forest

open Forest in
/-- **Grouping the declarations appends the groups that it answers,** and nothing if it fails. -/
theorem Document.enlists_groupOverloads :
    Enlists (fun d : Document => d.forest.ids) (fun groups => groups) groupOverloads := by
  refine .of_cases (fun {d groups e} h => ?_) fun {d failure e} h => ?_
  · obtain ⟨forest, hr, rfl⟩ := groupOverloads_ok h
    exact ids_of_regroupDocument hr
  · rcases groupOverloads_error h with rfl | ⟨refusal, forest, hr, rfl⟩
    · rfl
    · exact ids_of_regroupDocument_refused hr

end SyntaxForest
