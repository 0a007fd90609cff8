/-
**What a refused step of a builder leaves behind.**

A step checks its slots, numbers its name and keeps its sequence before its node is made.  When the
node is refused, the name keeps its number and the sequence its place, but there is no node more,
and no node that was there has changed.  So a relation between builders that the preparations carry
on holds around every step that is refused; only the making of a function needs more, because it
closes the function before it can be refused.

Main definitions:

* `Builder.Sparing` — a relation that the preparations of a step carry on.

Main results:

* `Builder.Sparing.perform` — **it holds around a step that is refused**;
* `Builder.Reached.grown` — the forest of a builder has a history;
* `Forest.littered_of_refused` — **what is refused leaves the nodes alone, and what it leaves in the
  store is seen by none of them.**
-/

import SyntaxForest.Proofs.Builder.Frames
import SyntaxForest.Proofs.Builder.Reach
import SyntaxForest.Proofs.Forest.Residue

set_option relaxedAutoImplicit false
set_option autoImplicit false

namespace SyntaxForest

open Forest SyntaxForest.Step

namespace Builder

/-- A relation between builders that the preparations of a step carry on. -/
structure Sparing (R : Builder → Builder → Prop) : Prop where
  refl : ∀ b : Builder, R b b
  trans : ∀ {b c d : Builder}, R b c → R c d → R b d
  intern : ∀ text : String, Carried R (intern text)
  storeList : ∀ (ids : List NodeId) (what : String), Carried R (storeList ids what)

namespace Sparing

variable {α : Type} {R : Builder → Builder → Prop}

theorem prepares (sparing : Sparing R) {action : Action α} (prepares : Prepares action) :
    Carried R action := by
  cases prepares with
  | check same =>
      intro b
      rw [same b]
      exact sparing.refl b
  | intern text => exact sparing.intern text
  | storeList ids what => exact sparing.storeList ids what

/-- A change of the forest that is refused, of a sort that leaves it alone then. -/
theorem onForest (sparing : Sparing R) {action : Forest.Action α}
    (refused : ∀ {f g refusal}, action f = .error refusal g → g = f) :
    Spares R (onForest action) := by
  intro b refusal c h
  obtain ⟨g, hg, rfl⟩ := onForest_error h
  rw [refused hg]
  exact sparing.refl b

/-- A group that is refused has come no further than to keep its members. -/
theorem groupFunctions (sparing : Sparing R) (name : Name) (members : List NodeId) :
    Spares R (Builder.onForest (groupFunctions name members)) := by
  intro b refusal c h
  obtain ⟨g, hg, rfl⟩ := onForest_error h
  cases members with
  | nil =>
      cases hg
      exact sparing.refl b
  | cons first rest =>
      rcases bind_eq_error_iff.1 hg with hstored | ⟨segment, f, hstored, hmade⟩
      · rw [storeList_refused hstored]
        exact sparing.refl b
      · rw [insertDerived_refused hmade]
        have hkept := sparing.storeList (first :: rest) "overload members" b
        rwa [Builder.storeList, stateOf_onForest, hstored] at hkept

/-- A step that makes one node, and is refused. -/
theorem makes (sparing : Sparing R) {action : Action NodeId} (makes : Makes action) :
    Spares R action := by
  induction makes with
  | insert span _ => exact sparing.onForest insert_refused
  | groupFunctions name members => exact sparing.groupFunctions name members
  | refuse refusal => exact .of_stateOf sparing.refl
  | bind first _ ih => exact .bind sparing.trans (sparing.prepares first) ih

/-- A match that is refused: once it is made, its local variable is counted. -/
theorem matching (sparing : Sparing R) (scrutinee : NodeId) (arms : List NodeId) (span : Span) :
    Spares R (matching scrutinee arms span) := by
  refine .bind sparing.trans (sparing.prepares (.expect _ _ scrutinee)) fun _ => ?_
  refine .bind sparing.trans (sparing.prepares (.expectArms arms)) fun _ => ?_
  refine .bind sparing.trans (sparing.prepares (.check stateOf_nextLocal)) fun slot => ?_
  refine .bind sparing.trans (sparing.storeList arms _) fun segment => ?_
  refine .before (sparing.onForest insert_refused) fun {b id c} _ => ?_
  cases hframes : c.frames with
  | nil => exact ⟨_, _, bind_of_ok (countLocal_outside hframes)⟩
  | cons count frames => exact ⟨_, _, bind_of_ok (countLocal_eq hframes)⟩

/-- What is left of the making of a function once it is closed: the function is made, and that it
is given its local variables is never refused. -/
theorem madeFunction (sparing : Sparing R) (name returnType : NodeId) (parameters : List NodeId)
    (body : NodeId) (span : Span) (count : Nat) :
    Spares R (do
      let segment ← Builder.storeList parameters "parameters"
      let id ← insert (.function name returnType segment body) span
      Builder.onForest (decorate id (Node.reserveLocals count id))
      return id) := by
  refine .bind sparing.trans (sparing.storeList parameters _) fun segment => ?_
  refine .before (sparing.onForest insert_refused) fun {b id c} hmade => ?_
  obtain ⟨-, -, -, hnode, -⟩ := insert_ok hmade
  exact ⟨_, _, bind_of_ok (reserveLocals_fresh hnode)⟩

/-- A function that is refused, under a relation that its closing carries on. -/
theorem function (sparing : Sparing R) (ends : Carried R endFunction) (name : NodeId)
    (returnType : Option NodeId) (parameters : List NodeId) (body : Option NodeId) (span : Span) :
    Spares R (function name returnType parameters body span) := by
  refine .bind sparing.trans (sparing.prepares (.expect _ _ name)) fun _ => ?_
  refine .bind sparing.trans (sparing.prepares (.expectOptional _ _ returnType)) fun _ => ?_
  refine .bind sparing.trans (sparing.prepares (.expectAll _ _ parameters)) fun _ => ?_
  refine .bind sparing.trans (sparing.prepares (.expectOptional _ _ body)) fun _ => ?_
  exact .bind sparing.trans ends fun count => sparing.madeFunction _ _ _ _ _ count

/-- **What the preparations carry on holds around a step that is refused,** the making of a function
apart. -/
theorem perform (sparing : Sparing R) (step : Step)
    (other : ∀ name returnType parameters body span,
      step = .function name returnType parameters body span →
        Spares R (Builder.function name returnType parameters body span)) :
    Spares R (perform step) := by
  by_cases plain : step.IsPlain
  · rcases makes_of_plain plain with ⟨action, makes, hperform⟩ | ⟨error, rfl⟩
    · rw [hperform]
      exact (sparing.makes makes).map
    · exact fun _ _ _ h => nomatch h
  · cases step with
    | beginFunction => exact fun _ _ _ h => nomatch h
    | function name returnType parameters body span =>
        exact (other name returnType parameters body span rfl).map
    | matching scrutinee arms span => exact (sparing.matching scrutinee arms span).map
    | parenthesized id =>
        refine Spares.map (.before (sparing.onForest decorate_refused) fun {b _ c} _ => ?_)
        exact ⟨_, _, rfl⟩
    | _ => exact absurd True.intro plain

end Sparing

/-! ### The nodes -/

/-- The preparations keep sequences and do nothing else to the forest. -/
theorem sparing_keepsMore : Sparing fun b c => b.forest.KeepsMore c.forest where
  refl b := .refl b.forest
  trans := .trans
  intern _ b := .refl b.forest
  storeList ids what b := by
    rw [storeList, stateOf_onForest]
    cases hr : Forest.storeList ids what b.forest with
    | ok segment g => exact ⟨ids, (storeList_eq_ok_iff.1 hr).1⟩
    | error refusal g =>
        rw [storeList_refused hr]
        exact .refl b.forest

theorem keepsMore_endFunction :
    Carried (fun b c => b.forest.KeepsMore c.forest) endFunction := by
  intro b
  unfold endFunction
  split <;> exact .refl b.forest

/-- **A step that is refused keeps a sequence at most.** -/
theorem spares_perform (step : Step) :
    Spares (fun b c : Builder => b.forest.KeepsMore c.forest) (perform step) :=
  sparing_keepsMore.perform step fun _ _ _ _ _ _ =>
    sparing_keepsMore.function keepsMore_endFunction _ _ _ _ _

/-! ### The history of a builder -/

/-- A node that is made has a place in a history if its segments lie inside the store. -/
theorem grown_of_insert {shape : Shape} {span : Span} {id : NodeId} {b c : Builder}
    (h : insert shape span b = .ok id c) (grown : b.forest.Grown)
    (stored : shape.Stored b.forest.lists) : c.forest.Grown := by
  obtain ⟨g, hg, rfl⟩ := onForest_eq_ok_iff.1 h
  have later := grown.edit (.insert shape span) rfl stored
  rwa [hg] at later

/-- A step that is done leaves a forest with a history, if it leaves a forest of trees. -/
def Recounts {α : Type} (action : Action α) : Prop :=
  ∀ b answer c, action b = .ok answer c → b.forest.Grown → c.forest.Treelike → c.forest.Grown

/-- The preparations of a step have a place in a history. -/
theorem sparing_grown : Sparing fun b c => b.forest.Grown → c.forest.Grown where
  refl _ grown := grown
  trans first second grown := second (first grown)
  intern _ _ grown := grown
  storeList ids what b grown := by
    rw [storeList, stateOf_onForest]
    exact grown.edit (.storeList ids what) rfl True.intro

variable {α β : Type}

theorem Recounts.bind {action : Action α} {next : α → Action β}
    (first : Carried (fun b c => b.forest.Grown → c.forest.Grown) action)
    (second : ∀ answer, Recounts (next answer)) : Recounts (action >>= next) := by
  intro b answer d h grown tree
  obtain ⟨middle, c, hfirst, hnext⟩ := bind_eq_ok_iff.1 h
  have hc := first b grown
  rw [hfirst] at hc
  exact second middle c answer d hnext hc tree

/-- In a forest of trees the node that was just made has its segments inside the store. -/
theorem recounts_insert (shape : Shape) (span : Span) : Recounts (insert shape span) := by
  intro b id c h grown tree
  obtain ⟨-, -, hadd, hnode, -⟩ := insert_ok h
  refine grown_of_insert h grown ?_
  have stored := tree.stored hnode
  rwa [hadd, lists_add] at stored

theorem recounts_groupFunctions (name : Name) (members : List NodeId) :
    Recounts (onForest (groupFunctions name members)) := by
  intro b id c h grown _
  obtain ⟨g, hg, rfl⟩ := onForest_eq_ok_iff.1 h
  have later := grown.edit (.groupFunctions name members) rfl True.intro
  rwa [hg] at later

theorem Makes.recounts {action : Action NodeId} (makes : Makes action) : Recounts action := by
  induction makes with
  | @insert shape span _ => exact recounts_insert shape span
  | groupFunctions name members => exact recounts_groupFunctions name members
  | refuse refusal => exact fun _ _ _ h => nomatch h
  | bind first _ ih => exact .bind (sparing_grown.prepares first) ih

theorem grown_endFunction :
    Carried (fun b c => b.forest.Grown → c.forest.Grown) endFunction := by
  intro b grown
  unfold endFunction
  split <;> exact grown

/-- A function is made and then given its local variables. -/
theorem recounts_madeFunction (name returnType : NodeId) (parameters : Segment) (body : NodeId)
    (span : Span) (count : Nat) :
    Recounts (do
      let id ← insert (.function name returnType parameters body) span
      onForest (decorate id (Node.reserveLocals count id))
      return id) := by
  intro b id d h grown tree
  obtain ⟨_, c, hinserted, hreserved⟩ := bind_eq_ok_iff.1 h
  obtain ⟨rfl, -, hadd, hnode, -⟩ := insert_ok hinserted
  rw [bind_of_ok (reserveLocals_fresh hnode)] at hreserved
  cases hreserved
  have stored : Shape.Stored b.forest.lists (.function name returnType parameters body) := by
    have hstored := tree.stored (node?_replace_self hnode)
    rwa [lists_replace, hadd, lists_add] at hstored
  have promised : Change.Stored c.forest (.reserveLocals ⟨b.forest.size⟩ count) := True.intro
  have later := (grown_of_insert hinserted grown stored).after promised
  obtain ⟨g, hg, hroom⟩ := onForest_eq_ok_iff.1 (reserveLocals_fresh hnode)
  rw [Change.after, hg] at later
  exact congrArg Builder.forest hroom ▸ later

theorem recounts_function (name : NodeId) (returnType : Option NodeId) (parameters : List NodeId)
    (body : Option NodeId) (span : Span) :
    Recounts (function name returnType parameters body span) := by
  refine .bind (sparing_grown.prepares (.expect _ _ name)) fun _ => ?_
  refine .bind (sparing_grown.prepares (.expectOptional _ _ returnType)) fun _ => ?_
  refine .bind (sparing_grown.prepares (.expectAll _ _ parameters)) fun _ => ?_
  refine .bind (sparing_grown.prepares (.expectOptional _ _ body)) fun _ => ?_
  refine .bind grown_endFunction fun count => ?_
  exact .bind (sparing_grown.storeList parameters _) fun segment =>
    recounts_madeFunction _ _ segment _ span count

theorem spares_grown_perform (step : Step) :
    Spares (fun b c : Builder => b.forest.Grown → c.forest.Grown) (perform step) :=
  sparing_grown.perform step fun _ _ _ _ _ _ => sparing_grown.function grown_endFunction _ _ _ _ _

theorem recounts_matching (scrutinee : NodeId) (arms : List NodeId) (span : Span) :
    Recounts (matching scrutinee arms span) := by
  refine .bind (sparing_grown.prepares (.expect _ _ scrutinee)) fun _ => ?_
  refine .bind (sparing_grown.prepares (.expectArms arms)) fun _ => ?_
  refine .bind (sparing_grown.prepares (.check stateOf_nextLocal)) fun slot => ?_
  refine .bind (sparing_grown.storeList arms _) fun segment => ?_
  intro d id c h grown tree
  obtain ⟨_, e, hinserted, hcounted⟩ := bind_eq_ok_iff.1 h
  obtain ⟨_, _, hcount, hdone⟩ := bind_eq_ok_iff.1 hcounted
  cases hdone
  have hforest : c.forest = e.forest := by
    cases hframes : e.frames with
    | nil =>
        rw [countLocal_outside hframes] at hcount
        cases hcount
        rfl
    | cons count frames =>
        rw [countLocal_eq hframes] at hcount
        cases hcount
        rfl
  rw [hforest] at tree ⊢
  exact recounts_insert _ span d _ e hinserted grown tree

/-- A step of a builder goes on with the history of its forest. -/
theorem grown_after {b : Builder} (grown : b.forest.Grown) (sound : b.Sound) (step : Step) :
    (after b step).forest.Grown := by
  have tree := (sound.reaches (reaches_after b step)).tree
  rw [after_eq_stateOf] at tree ⊢
  cases hr : perform step b with
  | error refusal c =>
      exact spares_grown_perform step b refusal c hr grown
  | ok answer c =>
      rw [hr] at tree
      -- a plain step is one insertion in the history; the others are told one by one
      by_cases plain : step.IsPlain
      · rcases makes_of_plain plain with ⟨action, makes, hperform⟩ | ⟨error, rfl⟩
        · rw [hperform] at hr
          obtain ⟨id, hmade, -⟩ := map_eq_ok_iff.1 hr
          exact makes.recounts b id c hmade grown tree
        · cases hr
          exact grown
      · cases step with
        | beginFunction =>
            cases hr
            exact grown
        | function name returnType parameters body span =>
            obtain ⟨id, hmade, -⟩ := map_eq_ok_iff.1 hr
            exact recounts_function _ _ _ _ _ b id c hmade grown tree
        | matching scrutinee arms span =>
            obtain ⟨id, hmade, -⟩ := map_eq_ok_iff.1 hr
            exact recounts_matching _ _ _ b id c hmade grown tree
        | parenthesized id =>
            obtain ⟨_, hnoted, -⟩ := map_eq_ok_iff.1 hr
            obtain ⟨_, _, hdecorated, hdone⟩ := bind_eq_ok_iff.1 hnoted
            cases hdone
            obtain ⟨g, hg, rfl⟩ := onForest_eq_ok_iff.1 hdecorated
            have later := grown.edit (.setParenthesized id) rfl True.intro
            rwa [hg] at later
        | _ => exact absurd True.intro plain

/-- **The forest of a builder has a history.** -/
theorem Reached.grown {b : Builder} (reached : b.Reached) : b.forest.Grown := by
  induction reached with
  | start _ source file => exact grown_empty
  | step reached step ih => exact grown_after ih reached.sound step
  | intern _ text ih => exact ih

theorem Reached.grown_finish {b : Builder} (reached : b.Reached) {directives : List NodeId}
    {d : Document} (handed : b.finish directives = .ok d) : d.forest.Grown := by
  obtain ⟨id, c, hroot, rfl⟩ := finish_eq_ok_iff.1 handed
  have tree := (reached.sound.reaches ((performs_root b directives).of_ok hroot).1).tree
  exact (Makes.root directives).recounts b id c hroot reached.grown tree

end Builder

namespace Forest

/-- **What is refused leaves the nodes alone.**  Builders and the documents that they hand over have
forests with a history.  In a forest with a history, an edit that is refused, a step of a builder
that is refused and a root that is refused change no node, list no child more or less, and leave
entries at the end of the store at most, which no segment reads that was given out before or
belongs to a node.  The history goes on from there. -/
theorem littered_of_refused :
    (∀ b : Builder, b.Reached → b.forest.Grown
        ∧ ∀ directives d, b.finish directives = .ok d → d.forest.Grown)
      ∧ ∀ f : Forest, f.Grown →
        (∀ (edit : Edit) refusal g, edit.run f = .error refusal g → f.Littered g ∧ g.Grown)
          ∧ ∀ b : Builder, b.forest = f →
            (∀ step refusal c, Builder.perform step b = .error refusal c →
              f.Littered c.forest ∧ c.forest.Grown)
              ∧ ∀ directives refusal c, Builder.root directives b = .error refusal c →
                f.Littered c.forest ∧ c.forest.Grown := by
  refine ⟨fun b reached => ⟨reached.grown, fun _ _ handed => reached.grown_finish handed⟩,
    fun f grown => ⟨fun edit refusal g refused => ?_, ?_⟩⟩
  · exact ⟨(edit.spares_run f refusal g refused).littered grown.treelike,
      grown.of_refused refused⟩
  · rintro b rfl
    refine ⟨fun step refusal c refused => ⟨?_, ?_⟩, fun directives refusal c refused => ⟨?_, ?_⟩⟩
    · exact (Builder.spares_perform step b refusal c refused).littered grown.treelike
    · exact Builder.spares_grown_perform step b refusal c refused grown
    · exact (Builder.sparing_keepsMore.makes (.root directives) b refusal c refused).littered
        grown.treelike
    · exact Builder.sparing_grown.makes (.root directives) b refusal c refused grown

/-- A builder with a use of a variable. -/
def variableUse : Builder :=
  Builder.runAll (Builder.start NameTable.fresh "f" none)
    [.name "f" ⟨0, 1⟩, .variableReference ⟨0⟩ ⟨0, 1⟩]

/-- A group of declarations that a document owns is refused after its members were kept, and so is
a call with its callee among its arguments. -/
theorem littered_of_owned_members :
    (∃ refusal g, (Edit.groupFunctions ⟨1⟩ [⟨2⟩, ⟨5⟩]).run (Change.runAll empty twoDeclarations)
        = .error refusal g
      ∧ (Change.runAll empty twoDeclarations).lists.size = 3 ∧ g.lists.size = 5
      ∧ (Change.runAll empty twoDeclarations).Littered g)
    ∧ ∃ refusal c, Builder.perform (.call ⟨1⟩ [⟨1⟩] false ⟨0, 1⟩) variableUse = .error refusal c
      ∧ variableUse.forest.lists.size = 0 ∧ c.forest.lists.size = 1
      ∧ variableUse.forest.Littered c.forest := by
  constructor
  · obtain ⟨refusal, g, refused, hsize⟩ : ∃ refusal g,
        (Edit.groupFunctions ⟨1⟩ [⟨2⟩, ⟨5⟩]).run (Change.runAll empty twoDeclarations)
          = .error refusal g ∧ g.lists.size = 5 := ⟨_, _, rfl, rfl⟩
    have grown : (Change.runAll empty twoDeclarations).Grown := ⟨_, by decide, rfl⟩
    exact ⟨refusal, g, refused, rfl, hsize,
      ((littered_of_refused.2 _ grown).1 _ refusal g refused).1⟩
  · obtain ⟨refusal, c, refused, hsize⟩ : ∃ refusal c,
        Builder.perform (.call ⟨1⟩ [⟨1⟩] false ⟨0, 1⟩) variableUse = .error refusal c
          ∧ c.forest.lists.size = 1 := ⟨_, _, rfl, rfl⟩
    have reached : variableUse.Reached := (Builder.Reached.start .fresh "f" none).runAll _
    have grown := (littered_of_refused.1 variableUse reached).1
    exact ⟨refusal, c, refused, rfl, hsize,
      (((littered_of_refused.2 _ grown).2 variableUse rfl).1 _ refusal c refused).1⟩

end Forest

end SyntaxForest
