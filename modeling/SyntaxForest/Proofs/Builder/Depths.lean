/-
**A builder makes deep documents.**

A builder puts no bound on how deep a tree becomes.  It negates a literal as often as it is asked
to, as long as there is room for nodes, declares a variable with the last negation as its value, and
hands over a document whose outline is too wide to be written.

Main definitions:

* `Builder.negations` — the steps that negate a node, then the negation, and so on;
* `Builder.deepSteps` — the steps of a document with two variables, the first with such a value.

Main results:

* `Builder.exists_runAll_negations` — negations are made as long as there is room;
* `Builder.exists_deep` — **a document without an outline is handed over.**
-/

import SyntaxForest.Proofs.Builder.Making
import SyntaxForest.Proofs.Forest.Depths

set_option relaxedAutoImplicit false
set_option autoImplicit false

namespace SyntaxForest

open Forest

namespace Builder

variable {b c : Builder} {first count : Nat} {g : Forest} {shape : Shape} {span : Span}

theorem after_of_ok {step : Step} {answer : Option NodeId} (h : perform step b = .ok answer c) :
    after b step = c := by
  rw [after, h]

theorem insert_of_admits (admits : b.forest.Admits shape span) : insert shape span b
    = .ok ⟨b.forest.size⟩ { b with forest := b.forest.add shape span none } :=
  onForest_eq_ok_iff.2 ⟨_, insert_eq_ok_iff.2 ⟨admits, rfl, rfl⟩, rfl⟩

/-! ### Negations -/

/-- The steps that negate the node `first`, then its negation, and so on. -/
def negations (first : Nat) : Nat → List Step
  | 0 => []
  | count + 1 => negations first count ++ [.negation ⟨first + count⟩ ⟨0, 1⟩]

theorem expectExpression_last (tower : Tower b.forest g first count) :
    expectExpression ⟨first + count⟩ { b with forest := g }
      = .ok ⟨first + count⟩ { b with forest := g } := by
  obtain ⟨node, hnode, -, hexpression⟩ := tower.free
  exact expect_eq_ok_iff.2 ⟨rfl, rfl, _, tag?_of_node? hnode, hexpression⟩

theorem after_negation (tower : Tower b.forest g first count)
    (room : first + count + 1 < maxWord) :
    after { b with forest := g } (.negation ⟨first + count⟩ span)
      = { b with forest := g.add (.negation ⟨first + count⟩) span none } := by
  refine after_of_ok (Step.map_eq_ok_iff.2 ⟨⟨g.size⟩, ?_, rfl⟩)
  rw [negation, Step.bind_of_ok (expectExpression_last tower)]
  exact insert_of_admits (b := { b with forest := g }) (tower.admits room)

/-- **Negations are made as long as there is room.** -/
theorem exists_runAll_negations (tower : Tower b.forest b.forest first 0)
    (room : first + count + 1 < maxWord) : ∃ g,
      runAll b (negations first count) = { b with forest := g } ∧ Tower b.forest g first count := by
  induction count with
  | zero => exact ⟨b.forest, rfl, tower⟩
  | succ count ih =>
      obtain ⟨g, hrun, before⟩ := ih (by omega)
      rw [negations, runAll_append, hrun, runAll, List.foldl_cons, List.foldl_nil,
        after_negation before (by omega)]
      exact ⟨_, rfl, before.next (by omega)⟩

/-! ### A deep document -/

/-- A variable with a binary expression without an operator, and what another one takes. -/
def variableSteps : List Step :=
  [ .name "w" ⟨0, 1⟩, .literal (.integer 2) ⟨0, 1⟩, .literal (.integer 3) ⟨0, 1⟩,
    .binary ⟨1⟩ "" ⟨2⟩ ⟨0, 1⟩, .varDirective ⟨0⟩ none (some ⟨3⟩) false ⟨0, 1⟩,
    .name "v" ⟨0, 1⟩, .literal (.integer 1) ⟨0, 1⟩ ]

/-- The other variable has the literal as its value, negated so often. -/
def deepSteps (count : Nat) : List Step :=
  variableSteps ++ negations 6 count
    ++ [.varDirective ⟨5⟩ none (some ⟨6 + count⟩) false ⟨0, 1⟩]

/-- The builder before the literal is negated. -/
def undeclared : Builder := runAll (start NameTable.fresh "" none) variableSteps

theorem tower_undeclared : Tower undeclared.forest undeclared.forest 6 0 where
  size := by decide +kernel
  lists := rfl
  chain := ⟨by decide +kernel, by decide +kernel, fun place h => (nomatch h), fun place h => by
    rw [Nat.le_zero.1 h]
    decide +kernel⟩
  free := ⟨_, rfl, rfl, rfl⟩
  other _ := rfl

/-- The shape of a variable that has the last negation as its value. -/
def deepVariable (name : NodeId) (last : Nat) : Shape :=
  .varDirective name NodeId.absent ⟨last⟩ false

section Variable

variable {name : NodeId} {node : Node} (tower : Tower b.forest g first count)
  (room : first + count + 1 < maxWord) (before : name.raw < first)

include room before in
theorem children_deepVariable :
    (deepVariable name (first + count)).children g.lists = [name, ⟨first + count⟩] := by
  rw [deepVariable, Shape.children, entries_of_lt (Nat.lt_of_succ_lt room),
    entries_of_lt (by omega)]
  rfl

include tower room before

theorem admits_deepVariable (here : b.forest.node? name = some node) (free : node.parent = none) :
    g.Admits (deepVariable name (first + count)) span :=
  tower.admits_pair room before ⟨node, here, free⟩
    (children_deepVariable room before ▸ .swap _ _ _) rfl

/-- The variable is declared. -/
theorem after_varDirective (here : b.forest.node? name = some node) (free : node.parent = none)
    (identifier : node.shape.tag = .nameIdentifier) :
    after { b with forest := g } (.varDirective name none (some ⟨first + count⟩) false span)
      = { b with forest := g.add (deepVariable name (first + count)) span none } := by
  have named : expectName name { b with forest := g } = .ok name { b with forest := g } :=
    expect_eq_ok_iff.2 ⟨rfl, rfl, _, tag?_of_node? ((tower.other before).trans here),
      decide_eq_true identifier⟩
  have unwritten : expectType? none { b with forest := g }
      = .ok NodeId.absent { b with forest := g } := rfl
  have admits : ({ b with forest := g } : Builder).forest.Admits
      (deepVariable name (first + count)) span := admits_deepVariable tower room before here free
  refine after_of_ok (Step.map_eq_ok_iff.2 ⟨⟨g.size⟩, ?_, rfl⟩)
  rw [varDirective, Step.bind_of_ok named, Step.bind_of_ok unwritten]
  exact (Step.bind_of_ok (expectExpression_last tower)).trans (insert_of_admits admits)

end Variable

/-! ### Handing over -/

/-- **A document is handed over** if its directives are there, nobody owns them, and there is
room. -/
theorem exists_finish {directives : List NodeId}
    (holds : b.forest.HoldsAll Tag.isDirective directives) (nodup : directives.Nodup)
    (free : ∀ id ∈ directives, ∃ node, b.forest.node? id = some node ∧ node.parent = none)
    (short : directives.length ≤ maxListLength) (room : b.forest.size < maxWord)
    (store : b.forest.lists.size + directives.length ≤ maxWord) : ∃ d shape,
      b.finish directives = .ok d ∧ d.root = ⟨b.forest.size⟩ ∧ shape.lacksOperator = false
        ∧ (b.forest.keep directives).Admits shape (wholeSpan b.source)
        ∧ shape.children (b.forest.keep directives).lists = directives
        ∧ d.forest = (b.forest.keep directives).add shape (wholeSpan b.source) none := by
  obtain ⟨segment, hstored, hlist⟩ := exists_storeList b "directives" short store
  have children : (Shape.document segment).children (b.forest.keep directives).lists
      = directives := hlist
  have admits : (b.forest.keep directives).Admits (.document segment) (wholeSpan b.source) := by
    refine ⟨room, by rw [children]; exact nodup, fun child hc => ?_, rfl⟩
    rw [children] at hc
    obtain ⟨node, hnode, hparent⟩ := free child hc
    exact ⟨node, hnode, Or.inl hparent⟩
  have made := insert_of_admits (b := { b with forest := b.forest.keep directives }) admits
  have listed : expectAll "directive" Tag.isDirective directives b = .ok () b :=
    expectAll_eq_ok_iff.2 ⟨rfl, holds⟩
  have run : root directives b = _ :=
    (Step.bind_of_ok listed).trans ((Step.bind_of_ok hstored).trans made)
  exact ⟨_, .document segment, finish_eq_ok_iff.2 ⟨_, _, run, rfl⟩, rfl, rfl, admits, children, rfl⟩

/-- An outline stops below a variable with a long chain of negations as its value. -/
theorem firstStop_of_chain {f : Forest} {root declared name : NodeId} {rest : List NodeId}
    (tree : f.Treelike) (chain : f.Chain first count) (known : root.raw < f.size)
    (directives : f.childList root = declared :: rest)
    (children : f.childList declared = [name, ⟨first + count⟩]) (single : f.childList name = [])
    (complete : ∀ id ∈ [root, declared, name], f.lacksOperator id = false)
    (deep : Text.maxWidth < 2 * (count + 2)) : f.FirstStop root (.fault .tooWide) := by
  have inside : ∀ {owner id}, id ∈ f.childList owner → id.raw < f.size := fun hc => by
    obtain ⟨node, hnode, -⟩ := tree.node?_of_mem hc
    exact lt_size_of_node? hnode
  have hdeclared : declared.raw < f.size := inside (directives ▸ List.mem_cons_self)
  have hname : name.raw < f.size := inside (children ▸ List.mem_cons_self)
  have below : f.Below declared (count + 1) ⟨first⟩ :=
    .of_child (children ▸ List.mem_cons_of_mem _ List.mem_cons_self) chain.below
  refine tree.firstStop_of_branch known directives (complete root (by simp)) ?_
    ((tree.mem_walk_iff hdeclared).2 (tree.below_iff.1 below).1) below deep
  intro n hn
  rw [tree.walk_eq hdeclared, children, List.flatMap_cons, List.flatMap_singleton,
    tree.walk_eq hname, single, List.mem_cons, List.mem_append] at hn
  rcases hn with rfl | hn | hn
  · exact complete n (by simp)
  · rw [List.flatMap_nil, List.mem_singleton] at hn
    exact complete n (by simp [hn])
  · exact chain.lacksOperator_of_mem tree hn

/-- The forest in which the variable with the chain is declared. -/
structure Declared (h : Forest) (count : Nat) : Prop where
  size : h.size = count + 8
  lists : h.lists.size = 0
  chain : h.Chain 6 count
  children : h.childList ⟨7 + count⟩ = [⟨5⟩, ⟨6 + count⟩]
  single : h.childList ⟨5⟩ = []
  complete : ∀ id ∈ [(⟨7 + count⟩ : NodeId), ⟨5⟩], h.lacksOperator id = false
  /-- The declarations of both variables are there, and nobody owns them. -/
  free : ∀ id ∈ [(⟨7 + count⟩ : NodeId), ⟨4⟩], ∃ node, h.node? id = some node
    ∧ node.parent = none ∧ node.shape.tag = .varDirective

theorem declared_of_tower (tower : Tower undeclared.forest g 6 count) (room : count + 8 < maxWord)
    (span : Span) : Declared (g.add (deepVariable ⟨5⟩ (6 + count)) span none) count := by
  have size := tower.size
  have admits : g.Admits (deepVariable ⟨5⟩ (6 + count)) span :=
    admits_deepVariable tower (by omega) (by decide) rfl rfl
  have children : (deepVariable ⟨5⟩ (6 + count)).children g.lists = [⟨5⟩, ⟨6 + count⟩] :=
    children_deepVariable (by omega) (by decide)
  have last : (⟨7 + count⟩ : NodeId) = ⟨g.size⟩ := by rw [size]; congr 1; omega
  have name : g.node? ⟨5⟩ = undeclared.forest.node? ⟨5⟩ := tower.other (by decide)
  have declaration : g.node? ⟨4⟩ = undeclared.forest.node? ⟨4⟩ := tower.other (by decide)
  have before : ∀ {place : Nat}, place < 6 → place < g.size := fun h => by omega
  refine ⟨by rw [size_add, size]; omega, by rw [lists_add, tower.lists]; rfl, tower.chain.add,
    by rw [last, childList_add_self admits, children], ?_, fun id hid => ?_, fun id hid => ?_⟩
  · rw [childList_add_of_ne (Nat.ne_of_lt (before (by decide))), childList_of_node? name]
    rfl
  · rw [List.mem_cons, List.mem_singleton] at hid
    rcases hid with rfl | rfl
    · rw [last, lacksOperator_add_self admits]
      rfl
    · rw [lacksOperator_add_of_lt (before (by decide)), lacksOperator, name]
      rfl
  · rw [List.mem_cons, List.mem_singleton] at hid
    rcases hid with rfl | rfl
    · exact ⟨_, last ▸ node?_add_self admits.notMem_children, rfl, rfl⟩
    · have apart : (⟨4⟩ : NodeId) ∉ [(⟨5⟩ : NodeId), ⟨6 + count⟩] := by simp; omega
      rw [node?_add_of_lt (before (by decide)), children, declaration]
      exact ⟨_, congrArg some (adopted_of_notMem apart), rfl, rfl⟩

/-- The steps declare the variable with the chain. -/
theorem exists_runAll_deepSteps (room : count + 8 < maxWord) : ∃ h, Declared h count
    ∧ runAll (start NameTable.fresh "" none) (deepSteps count)
      = { undeclared with forest := h } := by
  obtain ⟨g, hrun, tower⟩ := exists_runAll_negations tower_undeclared
    (show 6 + count + 1 < maxWord by omega)
  refine ⟨_, declared_of_tower tower room ⟨0, 1⟩, ?_⟩
  rw [deepSteps, runAll_append, runAll_append, ← undeclared, hrun, runAll, List.foldl_cons,
    List.foldl_nil, after_varDirective tower (by omega) (by decide) rfl rfl rfl]

/-- The two declarations are handed over under a root, and the outline of the document breaks off in
the chain. -/
theorem Declared.exists_finish (declared : Declared b.forest count) (sound : b.Sound)
    (room : count + 8 < maxWord) (deep : Text.maxWidth < 2 * (count + 2)) : ∃ d,
      b.finish [⟨7 + count⟩, ⟨4⟩] = .ok d ∧ d.forest.FirstStop d.root (.fault .tooWide) := by
  have size := declared.size
  have holds : b.forest.HoldsAll Tag.isDirective [⟨7 + count⟩, ⟨4⟩] := fun id hid => by
    obtain ⟨node, hnode, -, htag⟩ := declared.free id hid
    exact ⟨_, tag?_of_node? hnode, htag ▸ rfl⟩
  have free : ∀ id ∈ [(⟨7 + count⟩ : NodeId), ⟨4⟩], ∃ node, b.forest.node? id = some node
      ∧ node.parent = none := fun id hid => by
    obtain ⟨node, hnode, hparent, -⟩ := declared.free id hid
    exact ⟨node, hnode, hparent⟩
  obtain ⟨d, shape, handed, hroot, operator, admits, children, hforest⟩ :=
    Builder.exists_finish holds (by simp; omega) free (show 2 ≤ maxListLength by decide) (by omega)
      (by rw [declared.lists]; exact (show 2 ≤ maxWord by decide))
  obtain ⟨last, reaches, hlast, -⟩ := reaches_finish handed
  have tree : d.forest.Treelike := hlast ▸ (sound.reaches reaches).tree
  -- what is above the chain is as it was before the root was made
  have before : ∀ {place : Nat}, place < count + 8 →
      place < (b.forest.keep [⟨7 + count⟩, ⟨4⟩]).size := fun h => by
    rw [size_keep, size]
    exact h
  have kept : ∀ {place : Nat}, place < count + 8 → d.forest.childList ⟨place⟩
      = b.forest.childList ⟨place⟩ := fun h => by
    rw [hforest, childList_add_of_ne (Nat.ne_of_lt (before h)),
      childList_keep sound.tree.stored]
  have operators : ∀ {place : Nat}, place < count + 8 → d.forest.lacksOperator ⟨place⟩
      = b.forest.lacksOperator ⟨place⟩ := fun h => by
    rw [hforest, lacksOperator_add_of_lt (before h)]
    rfl
  have known : d.root.raw < d.forest.size := by
    rw [hroot, hforest, size_add]
    exact Nat.lt_succ_self _
  have directives : d.forest.childList d.root = [⟨7 + count⟩, ⟨4⟩] := by
    rw [hroot, hforest]
    exact (childList_add_self admits).trans children
  have chain : d.forest.Chain 6 count :=
    hforest ▸ (declared.chain.keep sound.tree _).add
  refine ⟨d, handed, firstStop_of_chain tree chain known directives
    ((kept (by omega)).trans declared.children) ((kept (by omega)).trans declared.single) ?_ deep⟩
  intro id hid
  rcases List.mem_cons.1 hid with rfl | hid
  · rw [hroot, hforest]
    exact (lacksOperator_add_self admits).trans operator
  · have complete := declared.complete id hid
    rw [List.mem_cons, List.mem_singleton] at hid
    rcases hid with rfl | rfl <;> exact (operators (by omega)).trans complete

/-- **A document without an outline is handed over.** -/
theorem exists_deep (room : count + 8 < maxWord) (deep : Text.maxWidth < 2 * (count + 2)) :
    (runAll (start NameTable.fresh "" none) (deepSteps count)).names = undeclared.names
      ∧ ∃ d, (runAll (start NameTable.fresh "" none) (deepSteps count)).finish [⟨7 + count⟩, ⟨4⟩]
        = .ok d ∧ d.forest.FirstStop d.root (.fault .tooWide) := by
  have reached := (Reached.start .fresh "" none).runAll (deepSteps count)
  obtain ⟨h, declared, hrun⟩ := exists_runAll_deepSteps room
  rw [hrun] at reached ⊢
  exact ⟨rfl, declared.exists_finish (b := { undeclared with forest := h }) reached.sound room
    deep⟩

end Builder

end SyntaxForest
