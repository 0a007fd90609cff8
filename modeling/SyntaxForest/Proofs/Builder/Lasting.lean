/-
**What is read lasts.**

The steps of a builder make nodes, which gives their parts an owner, and write to nodes that they
have just made.  Only one step writes to a node that was there: the one that notes parentheses.
So a tree that was built is read again whatever is done afterwards, refused or not, as long as no
parentheses are noted on its own nodes, and it is read in the document in the end.

Main definitions:

* `Builder.Leaving` — a builder in which what is read of some nodes is what it was;
* `Builder.Between` — the nodes that were made between two builders.

Main results:

* `Builder.carries_leaving` — the common parts of the steps leave what is read;
* `Builder.keeps_after`, `Builder.keeps_runAll`, `Builder.keeps_finish` — what the steps, their runs
  and the end of them leave;
* `Tree.read_build` — **a tree that is built is read back, now and later.**
-/

import SyntaxForest.Proofs.Builder.Building
import SyntaxForest.Proofs.Builder.Carrying

set_option relaxedAutoImplicit false
set_option autoImplicit false

namespace SyntaxForest

open Forest

namespace Forest

/-! ### Changes of the forest -/

variable {S : NodeId → Prop} {id : NodeId}

theorem carries_keeps (S : NodeId → Prop) : Carries (fun _ _ => True) fun f g => f.Keeps g S where
  refl f := Keeps.refl f S
  trans first second := first.trans second
  keep f ids := Keeps.keep f ids S
  add _ _ _ := Keeps.add _ _ _ _ S

/-- A decoration that does not touch what is read of some nodes. -/
theorem keeps_decorate (f : Forest) {rule : Node → Except Refusal Node}
    (same : ∀ {old new}, S id → rule old = .ok new → new.shape = old.shape
      ∧ new.span = old.span ∧ new.parenthesized = old.parenthesized) :
    f.Keeps (stateOf (decorate id rule f)) S := by
  unfold decorate decorateWith
  cases hold : f.node? id with
  | none => exact Keeps.refl f S
  | some old =>
      dsimp only
      cases hnew : rule old with
      | error refusal => exact Keeps.refl f S
      | ok new => exact Keeps.replace hold fun hid => same hid hnew

end Forest

namespace Builder

/-! ### Steps that leave what is read -/

/-- A builder in which what is read of some nodes is what it was. -/
def Leaving (S : NodeId → Prop) (b c : Builder) : Prop := b.forest.Keeps c.forest S

variable {α : Type} {b c : Builder} {S : NodeId → Prop}

theorem leaves_onForest {action : Forest.Action α}
    (keeps : ∀ f : Forest, f.Keeps (stateOf (action f)) S) :
    Carried (Leaving S) (onForest action) := carried_onForest (R := fun f g => f.Keeps g S) keeps

theorem carries_leaving (S : NodeId → Prop) : Carries (Leaving S) :=
  carries_of_forest (carries_keeps S) fun _ _ _ => True.intro

/-! ### The other steps -/

theorem leaves_endFunction : Carried (Leaving S) endFunction := by
  intro b
  unfold endFunction
  split <;> exact Keeps.refl b.forest S

theorem leaves_countLocal : Carried (Leaving S) countLocal := by
  intro b
  cases hframes : b.frames with
  | nil =>
      rw [countLocal_outside hframes]
      exact Keeps.refl b.forest S
  | cons count frames =>
      rw [countLocal_eq hframes]
      exact Keeps.refl b.forest S

/-- The local variables of a function are not read. -/
theorem leaves_reserveLocals (id : NodeId) (count : Nat) :
    Carried (Leaving S) (onForest (decorate id (Node.reserveLocals count id))) := by
  refine leaves_onForest fun f => keeps_decorate f fun {old new} _ hnew => ?_
  obtain ⟨info, -, heq⟩ := Question.bind_eq_ok_iff.1 hnew
  cases heq
  exact ⟨rfl, rfl, rfl⟩

theorem leaves_parenthesized {id : NodeId} (h : ¬ S id) :
    Carried (Leaving S) (parenthesized id) := by
  refine (carries_leaving S).bind (leaves_onForest fun f => ?_)
    fun _ => (carries_leaving S).check fun _ => rfl
  exact keeps_decorate f fun hid => absurd hid h

theorem leaves_function (name : NodeId) (returnType : Option NodeId) (parameters : List NodeId)
    (body : Option NodeId) (span : Span) :
    Carried (Leaving S) (function name returnType parameters body span) := by
  have carries := carries_leaving S
  refine carries.bind (carries.prepares (.expect _ _ name)) fun _ => ?_
  refine carries.bind (carries.prepares (.expectOptional _ _ returnType)) fun _ => ?_
  refine carries.bind (carries.prepares (.expectAll _ _ parameters)) fun _ => ?_
  refine carries.bind (carries.prepares (.expectOptional _ _ body)) fun _ => ?_
  refine carries.bind leaves_endFunction fun count => ?_
  refine carries.bind (carries.storeList parameters _) fun _ => ?_
  refine carries.bind (carries.insert span nofun) fun id => ?_
  exact carries.bind (leaves_reserveLocals id count) fun _ => carries.check fun _ => rfl

theorem leaves_matching (scrutinee : NodeId) (arms : List NodeId) (span : Span) :
    Carried (Leaving S) (matching scrutinee arms span) := by
  have carries := carries_leaving S
  refine carries.bind (carries.prepares (.expect _ _ scrutinee)) fun _ => ?_
  refine carries.bind (carries.prepares (.expectArms arms)) fun _ => ?_
  refine carries.bind (carries.check stateOf_nextLocal) fun _ => ?_
  refine carries.bind (carries.storeList arms _) fun _ => ?_
  have made : ∀ shape, Carried (Leaving S) (insert shape span) := fun shape =>
    leaves_onForest fun _ => (carries_keeps S).insert fun _ => True.intro
  refine carries.bind (made _) fun id => ?_
  exact carries.bind leaves_countLocal fun _ => carries.check fun _ => rfl

/-- **A step leaves what is read** of nodes on which it notes no parentheses. -/
theorem keeps_after (b : Builder) (step : Step)
    (untouched : ∀ node, step = .parenthesized node → ¬ S node) :
    b.forest.Keeps (after b step).forest S := by
  by_cases plain : step.IsPlain
  · exact (carries_leaving S).after_plain plain b
  · rw [after_eq_stateOf]
    cases step with
    | beginFunction => exact Keeps.refl _ S
    | function name returnType parameters body span =>
        rw [perform, SyntaxForest.Step.stateOf_map]
        exact leaves_function name returnType parameters body span b
    | matching scrutinee arms span =>
        rw [perform, SyntaxForest.Step.stateOf_map]
        exact leaves_matching scrutinee arms span b
    | parenthesized node =>
        rw [perform, SyntaxForest.Step.stateOf_map]
        exact leaves_parenthesized (untouched node rfl) b
    | _ => exact absurd True.intro plain

/-! ### Runs -/

/-- So does a run of steps. -/
theorem keeps_runAll (b : Builder) (steps : List Step)
    (untouched : ∀ node, .parenthesized node ∈ steps → ¬ S node) :
    b.forest.Keeps (runAll b steps).forest S := by
  induction steps generalizing b with
  | nil => exact Keeps.refl _ S
  | cons step rest ih =>
      have hstep := keeps_after b step fun node hnode => untouched node (hnode ▸ List.mem_cons_self)
      exact hstep.trans (ih _ fun node hnode => untouched node (List.mem_cons_of_mem _ hnode))

/-- So does the end of it. -/
theorem keeps_finish {directives : List NodeId} {document : Document}
    (h : finish b directives = .ok document) :
    b.forest.Keeps document.forest S ∧ b.names.Extends document.names := by
  have hleaves := (carries_leaving S).makes (.root directives) b
  obtain ⟨id, c, hroot, rfl⟩ := finish_eq_ok_iff.1 h
  rw [hroot] at hleaves
  exact ⟨hleaves, ((performs_root b directives).of_ok hroot).1.names⟩

/-! ### Built trees -/

/-- The numbers of the nodes that were made between two builders. -/
def Between (b c : Builder) (id : NodeId) : Prop :=
  b.forest.size ≤ id.raw ∧ id.raw < c.forest.size

/-- **A tree that was built is read in each forest that keeps its nodes.** -/
theorem Appends.read_of_keeps {nodes kept : Nat} {id : NodeId} {t : Tree} {g : Forest}
    {names : NameTable} (appends : b.Appends c nodes kept) (stands : c.Stands b.forest.size id t)
    (keeps : c.forest.Keeps g (Between b c)) (ext : c.names.Extends names) :
    g.read names id = some t := by
  have hclosed : ∀ id, Between b c id → ∀ child ∈ c.forest.childList id, Between b c child :=
    fun _ hid _ hchild => ⟨appends.closed hid.1 hchild, appends.sound.lt_of_mem hchild⟩
  exact keeps.readF appends.sound.fitted ext hclosed ⟨stands.start_le, stands.lt_size⟩ stands.read

end Builder

open Builder

/-- **A tree of the language is built by each builder that has room, and it is read back where it
was built.**  It is read there after whatever steps come later, refused or not, that note no
parentheses on its nodes, and in the document that is handed over after them. -/
theorem Tree.read_build {b : Builder} {t : Tree} (reached : b.Reached)
    (wellFormed : t.WellFormed (!b.frames.isEmpty))
    (nodes : b.forest.size + t.size ≤ maxWord)
    (store : b.forest.lists.size + t.kept ≤ maxWord) :
    ∃ id c, t.build b = .ok id c
      ∧ c.forest.size = b.forest.size + t.size
      ∧ c.forest.read c.names id = some t
      ∧ ∀ steps, (∀ node, .parenthesized node ∈ steps → ¬ Between b c node) →
          (runAll c steps).forest.read (runAll c steps).names id = some t
            ∧ ∀ directives document, finish (runAll c steps) directives = .ok document →
                document.forest.read document.names id = some t := by
  have hopened : (!b.frames.isEmpty) = true → b.frames ≠ [] := fun h hframes => by
    rw [hframes] at h
    cases h
  have room : b.HasRoom (!b.frames.isEmpty) t.size t.kept :=
    ⟨reached.sound, hopened, nodes, store⟩
  obtain ⟨id, c, hbuilt, appends, stands⟩ := wellFormed.buildable room
  refine ⟨id, c, hbuilt, appends.size, stands.read, fun steps untouched => ?_⟩
  -- the nodes of the tree list none but each other, so nothing else has to be kept
  have hrun := keeps_runAll c steps untouched
  have hnames := (reaches_runAll c steps).names
  refine ⟨appends.read_of_keeps stands hrun hnames, fun directives document hfinish => ?_⟩
  obtain ⟨hkept, hext⟩ := keeps_finish (S := Between b c) hfinish
  exact appends.read_of_keeps stands (hrun.trans hkept) (hnames.trans hext)

/-! ### A function with a match -/

/-- A use of a variable. -/
def Tree.use (text : String) : Tree :=
  .node .variableReference ⟨⟨2, 3⟩, false⟩ [[.node (.name text) ⟨⟨2, 3⟩, false⟩ []]]

/-- A function of one parameter, whose body is a match in parentheses with an arm for a literal and
an arm that is always taken. -/
def Tree.parenthesizedMatch : Tree :=
  .node .function ⟨⟨0, 9⟩, false⟩
    [[.node (.name "f") ⟨⟨0, 1⟩, false⟩ []],
      [],
      [.node .parameter ⟨⟨1, 2⟩, false⟩ [[.node (.name "x") ⟨⟨1, 2⟩, false⟩ []], [], []]],
      [.node .matching ⟨⟨3, 8⟩, true⟩
        [[use "x"],
          [.node .literalArm ⟨⟨4, 6⟩, false⟩
              [[.node (.literal (.boolean true)) ⟨⟨4, 5⟩, false⟩ []], [use "y"]],
            .node .defaultArm ⟨⟨6, 8⟩, false⟩ [[use "x"]]]]]]

/-- It is built and read back at the start of a source. -/
theorem Tree.read_build_parenthesizedMatch :
    parenthesizedMatch.WellFormed false ∧ ∃ id c,
      parenthesizedMatch.build (start .fresh "" none) = .ok id c
        ∧ c.forest.size = 14
        ∧ c.forest.read c.names id = some parenthesizedMatch := by
  have reached : (start .fresh "" none).Reached := .start .fresh "" none
  have wellFormed : parenthesizedMatch.WellFormed (!(start .fresh "" none).frames.isEmpty) := by
    decide
  have nodes : (start .fresh "" none).forest.size + parenthesizedMatch.size ≤ maxWord := by decide
  have store : (start .fresh "" none).forest.lists.size + parenthesizedMatch.kept ≤ maxWord := by
    decide
  obtain ⟨id, c, hbuilt, hsize, hread, -⟩ := Tree.read_build reached wellFormed nodes store
  exact ⟨wellFormed, id, c, hbuilt, hsize, hread⟩

end SyntaxForest
