/-
**Which contents may change.**

A forest that is changed keeps its nodes, and nearly all of them keep their contents.  Two changes
exchange contents: a literal takes another value of its kind, and a document takes other directives
when its declarations are grouped.  Everything else only adds to what is there.

A regrouping that fails gives the document its former directives back, but it may be refused to: if
one of them is owned by somebody else, it cannot be owned again.  Then the document is left without
directives.  In a forest with a history no directive is owned by anybody else, so this asks for a
document whose segment lay outside the store when the document was made.

Main definitions:

* `Forest.EvolvesBy` — a forest that evolves, with the exchanges of contents that may take place;
* `Forest.Change.Rewrites` — the exchanges of a change;
* `Forest.Emptied` — a document that is left without directives.

Main results:

* `Forest.EvolvesBy.exchange`, `Forest.EvolvesBy.rollback` — the parts of a regrouping;
* `Forest.evolvesBy_after` — **a change exchanges no contents but its own**;
* `Forest.emptied_of_refused`, `Forest.contents_of_refused` — **a regrouping that is refused leaves
  the directives or none,** and the directives if the document may own them in what is left.
-/

import SyntaxForest.Proofs.Forest.Evolution

set_option relaxedAutoImplicit false
set_option autoImplicit false

namespace SyntaxForest

namespace Forest

/-! ### Exchanges -/

/-- A forest that evolves, and contents that are exchanged only as it is said. -/
structure EvolvesBy (rewrites : NodeId → Shape → Shape → Prop) (f g : Forest) : Prop
    extends Evolves f g where
  contents : ∀ {id node later}, f.node? id = some node → g.node? id = some later →
    later.shape = node.shape ∨ rewrites id node.shape later.shape

/-- What a change may exchange. -/
inductive Change.Rewrites : Change → NodeId → Shape → Shape → Prop
  /-- A literal may take another value of its kind. -/
  | literal {id : NodeId} {former value : Literal} (kind : former.kind = value.kind) :
      Rewrites (.edit (.setLiteral id value)) id (.literal former) (.literal value)
  /-- A document may take other directives. -/
  | directives {root : NodeId} {former later : Segment} :
      Rewrites (.regroup root) root (.document former) (.document later)

/-- A document is left without directives. -/
inductive Emptied (root : NodeId) : NodeId → Shape → Shape → Prop
  | document (former : Segment) :
      Emptied root root (.document former) (.document Segment.empty)

theorem Emptied.eq {root id : NodeId} {a b : Shape} (h : Emptied root id a b) :
    id = root ∧ b = .document Segment.empty := by
  cases h with
  | document _ => exact ⟨rfl, rfl⟩

/-- One exchange after another is an exchange. -/
def Chains (rewrites : NodeId → Shape → Shape → Prop) : Prop :=
  ∀ id a b c, rewrites id a b → rewrites id b c → rewrites id a c

theorem Change.chains_rewrites (change : Change) : Chains change.Rewrites := by
  intro id a b c first second
  cases first with
  | literal kind =>
      cases second with
      | literal _ => exact .literal kind
  | directives =>
      cases second with
      | directives => exact .directives

theorem chains_emptied (root : NodeId) : Chains (Emptied root) := by
  intro id a b c first second
  cases first with
  | document former =>
      cases second with
      | document _ => exact .document former

variable {f g h : Forest} {id root : NodeId} {node : Node} {shape : Shape} {span : Span}
  {former directives : Segment} {rewrites : NodeId → Shape → Shape → Prop}

namespace EvolvesBy

/-- Contents that all stay. -/
theorem of_same (evolves : f.Evolves g)
    (same : ∀ {id node}, f.node? id = some node → ∃ later, g.node? id = some later
      ∧ later.shape = node.shape) : f.EvolvesBy rewrites g where
  toEvolves := evolves
  contents hnode hlater := by
    obtain ⟨other, hother, hshape⟩ := same hnode
    obtain rfl := Option.some.inj (hlater.symm.trans hother)
    exact Or.inl hshape

theorem refl (f : Forest) : f.EvolvesBy rewrites f :=
  of_same (Evolves.refl f) fun hnode => ⟨_, hnode, rfl⟩

theorem trans (chains : Chains rewrites) (first : f.EvolvesBy rewrites g)
    (second : g.EvolvesBy rewrites h) : f.EvolvesBy rewrites h where
  toEvolves := first.toEvolves.trans second.toEvolves
  contents hnode hlast := by
    obtain ⟨later, hlater, -⟩ := first.node hnode
    rcases first.contents hnode hlater with hsame | hfirst
    · rw [← hsame]
      exact second.contents hlater hlast
    · rcases second.contents hlater hlast with hsame | hsecond
      · rw [hsame]
        exact Or.inr hfirst
      · exact Or.inr (chains _ _ _ _ hfirst hsecond)

theorem add (admits : f.Admits shape span) (donor : Option NodeId) :
    f.EvolvesBy rewrites (f.add shape span donor) := by
  refine of_same (Evolves.add admits donor) fun {id node} hnode => ?_
  refine ⟨_, by rw [node?_add_of_lt (lt_size_of_node? hnode), hnode, Option.map_some], ?_⟩
  unfold adopted
  split <;> rfl

/-- A document takes other directives after a forest has evolved; what matters is what it had at
first. -/
theorem exchange {rewrites' : NodeId → Shape → Shape → Prop} (evolves : f.EvolvesBy rewrites g)
    (here : g.node? root = some node) (document : node.shape.tag = .document)
    (accepts : g.Accepts root node (.document directives))
    (others : ∀ {id a b}, id ≠ root → rewrites id a b → rewrites' id a b)
    (allowed : ∀ {old}, f.node? root = some old →
      .document directives = old.shape ∨ rewrites' root old.shape (.document directives)) :
    f.EvolvesBy rewrites' (g.reshape root node (.document directives)) where
  toEvolves := evolves.toEvolves.trans (Evolves.exchange here document accepts)
  contents {id old last} hold hlast := by
    obtain ⟨later, hlater, -⟩ := evolves.node hold
    obtain ⟨other, hother, hshape⟩ := exists_node?_reshape hlater
    obtain rfl := Option.some.inj (hlast.symm.trans hother)
    rw [hshape]
    split
    · next hid =>
        subst hid
        exact allowed hold
    · next hid => exact (evolves.contents hold hlater).imp_right (others hid)

/-- A document takes other directives. -/
theorem exchange_self (here : f.node? root = some node) (document : node.shape.tag = .document)
    (accepts : f.Accepts root node (.document directives))
    (allowed : ∀ former, rewrites root (.document former) (.document directives)) :
    f.EvolvesBy rewrites (f.reshape root node (.document directives)) := by
  refine (refl f).exchange here document accepts (fun _ h => h) fun {old} hold => Or.inr ?_
  obtain rfl := Option.some.inj (here.symm.trans hold)
  cases hshape : node.shape with
  | document former => exact allowed former
  | literal value =>
      rw [hshape] at document
      cases value <;> cases document
  | _ =>
      rw [hshape] at document
      cases document

/-- Falling back to what was there drops only what came later. -/
theorem rollback (evolves : f.EvolvesBy rewrites g) :
    f.EvolvesBy rewrites (g.rollback f.mark) where
  toEvolves := evolves.toEvolves.rollback
  contents {id node last} hnode hlast := by
    obtain ⟨later, hlater, -⟩ := evolves.node hnode
    obtain ⟨parent, hparent, -⟩ :=
      exists_node?_rollback (m := f.mark) (lt_size_of_node? hnode) hlater
    have hcontents := evolves.contents hnode hlater
    obtain rfl := Option.some.inj (hlast.symm.trans hparent)
    exact hcontents

/-- The makers of nodes exchange nothing. -/
theorem carries (chains : Chains rewrites) :
    Carries (fun _ _ => True) (EvolvesBy rewrites) where
  refl := refl
  trans := trans chains
  keep f ids := by
    have act : Act (fun _ _ => True) f (f.keep ids) := .keep ids
    exact of_same (Evolves.act act) fun hnode => ⟨_, hnode, rfl⟩
  add admits _ _ := add admits _

/-- A regrouping exchanges the directives of a document. -/
theorem regroups (chains : Chains rewrites)
    (allowed : ∀ former later, rewrites root (.document former) (.document later)) :
    Regroups root (EvolvesBy rewrites) where
  toCarries := carries chains
  document evolves document := evolves.tag? document
  exchange here document accepts :=
    exchange_self here document accepts fun former => allowed former _
  rollback := rollback

/-! ### Decorations -/

/-- A decoration exchanges what its rule does. -/
theorem decorateWith {α : Type} {rule : Node → Except Refusal (α × Node)}
    (redecorated : ∀ {old new answer}, rule old = .ok (answer, new) → old.Redecorated new)
    (contents : ∀ {old new answer}, rule old = .ok (answer, new) →
      new.shape = old.shape ∨ rewrites id old.shape new.shape) (f : Forest) :
    f.EvolvesBy rewrites (stateOf (decorateWith id rule f)) := by
  unfold Forest.decorateWith
  split
  · exact refl f
  · next old hold =>
      split
      · exact refl f
      · next answer new hnew =>
          have act : Act (fun _ _ => True) f (f.replace id new) :=
            .decorate hold (redecorated hnew)
          refine ⟨Evolves.act act, fun {other node later} hnode hlater => ?_⟩
          by_cases hother : other = id
          · subst hother
            obtain rfl := Option.some.inj (hold.symm.trans hnode)
            rw [stateOf, node?_replace_self hold] at hlater
            cases hlater
            exact contents hnew
          · rw [stateOf, node?_replace_of_ne hother, hnode] at hlater
            cases hlater
            exact Or.inl rfl

theorem decorate {rule : Node → Except Refusal Node}
    (redecorated : ∀ {old new}, rule old = .ok new → old.Redecorated new)
    (contents : ∀ {old new}, rule old = .ok new →
      new.shape = old.shape ∨ rewrites id old.shape new.shape) (f : Forest) :
    f.EvolvesBy rewrites (stateOf (decorate id rule f)) :=
  decorateWith (fun hr => redecorated (eq_ok_of_rule hr)) (fun hr => contents (eq_ok_of_rule hr)) f

theorem write (write : Node.Write) (f : Forest) :
    f.EvolvesBy rewrites (stateOf (Forest.decorate id (write.rule id) f)) :=
  decorate (Node.Write.redecorated write)
    (fun h => Or.inl (congrArg Node.shape (Node.Write.rule_writes h).2.2 :)) f

theorem reserveLocals (function : NodeId) (count : Nat) (f : Forest) :
    f.EvolvesBy rewrites
      (stateOf (Forest.decorate function (Node.reserveLocals count function) f)) := by
  refine decorate Node.reserveLocals_redecorated (fun {old new} h => Or.inl ?_) f
  obtain ⟨info, -, heq⟩ := Question.bind_eq_ok_iff.1 h
  cases heq
  rfl

theorem setParenthesized (id : NodeId) (f : Forest) :
    f.EvolvesBy rewrites (stateOf (Forest.decorate id Node.setParenthesized f)) := by
  refine decorate Node.setParenthesized_redecorated (fun {old new} h => Or.inl ?_) f
  cases h
  rfl

end EvolvesBy

/-! ### Changes -/

/-- A literal takes a value of its kind. -/
theorem Change.Rewrites.of_setLiteral {value : Literal} {old new : Node}
    (h : old.setLiteral value id = .ok new) :
    Rewrites (.edit (.setLiteral id value)) id old.shape new.shape := by
  unfold Node.setLiteral at h
  split at h
  · next current hshape =>
      split at h
      · next kind =>
          cases h
          rw [hshape]
          exact .literal kind
      · cases h
  · cases h

/-- An edit exchanges the value of a literal at most. -/
theorem evolvesBy_edit (f : Forest) (edit : Edit) :
    f.EvolvesBy (Change.edit edit).Rewrites (edit.after f) := by
  have carries := EvolvesBy.carries (Change.chains_rewrites (.edit edit))
  rw [Edit.after_eq_stateOf]
  cases edit <;> rw [Edit.run, Step.stateOf_map]
  case insert shape span => exact carries.insert fun _ => True.intro
  case insertDerived shape donor => exact carries.insertDerived fun _ => True.intro
  case storeList ids what => exact carries.storeList ids what
  case setParenthesized node => exact EvolvesBy.setParenthesized node f
  case setType node type => exact EvolvesBy.write (.type type) f
  case addError node error =>
      refine EvolvesBy.decorate Node.addError_redecorated (fun {old new} h => Or.inl ?_) f
      cases h
      rfl
  case setNativeType node type => exact EvolvesBy.write (.nativeType type) f
  case setOperation node operation => exact EvolvesBy.write (.operation operation) f
  case setLiteral node value =>
      exact EvolvesBy.decorate Node.setLiteral_redecorated
        (fun h => Or.inr (Change.Rewrites.of_setLiteral h)) f
  case setIdentifier function name => exact EvolvesBy.write (.identifier name) f
  case allocateLocal function type =>
      refine EvolvesBy.decorateWith Node.allocateLocal_redecorated
        (fun {old new answer} h => Or.inl ?_) f
      obtain ⟨info, -, h⟩ := Question.bind_eq_ok_iff.1 h
      obtain ⟨place, -, h⟩ := Question.bind_eq_ok_iff.1 h
      cases h
      rfl
  case setLocalType function slot type => exact EvolvesBy.write (.localType slot type) f
  case specialize base closure => exact carries.insertDerived fun _ => True.intro
  case groupFunctions name members => exact carries.groupFunctions fun _ _ _ => True.intro

/-- **A change exchanges no contents but its own,** refused or not. -/
theorem evolvesBy_after (f : Forest) (change : Change) :
    f.EvolvesBy change.Rewrites (change.after f) := by
  cases change with
  | edit edit => exact evolvesBy_edit f edit
  | reserveLocals function count => exact EvolvesBy.reserveLocals function count f
  | regroup root =>
      have regroups := EvolvesBy.regroups (Change.chains_rewrites (.regroup root))
        fun _ _ => .directives
      exact regroups.regroupDocument f

/-! ### Regroupings that fail -/

section

variable {members : Name → List NodeId} {listed : List NodeId} {failure : Failure}

/-- When a regrouping fails, the document has its directives still or none. -/
theorem emptied_of_regroup (document : f.directivesOf root = .ok former)
    (run : regroup root listed members f = .error failure g) :
    f.EvolvesBy (Emptied root) g := by
  have chains := chains_emptied root
  have carries := EvolvesBy.carries chains
  obtain ⟨node, hnode, hshape⟩ := directivesOf_eq_ok_iff.1 document
  rcases Step.bind_eq_error_iff.1 run with hgiven | ⟨_, given, hgiven, hnext⟩
  · rw [(replaceShape_error hgiven).1]
    exact EvolvesBy.refl f
  obtain ⟨_, here, accepts, -, rfl⟩ := replaceShape_eq_ok_iff.1 hgiven
  obtain rfl := Option.some.inj (hnode.symm.trans here)
  have emptied : f.EvolvesBy (Emptied root) (f.reshape root node (.document Segment.empty)) :=
    EvolvesBy.exchange_self here (by rw [hshape]; rfl) accepts fun former => .document former
  have passed := emptied.trans chains (carries.regroupEach members listed _)
  rcases Step.bind_eq_error_iff.1 hnext with hfates | ⟨fates, grouped, hfates, hnext⟩
  · rwa [hfates] at passed
  rw [hfates] at passed
  have stores : Attempt.Carried (EvolvesBy (Emptied root))
      (storeList (Fate.directives fates) "directives").toAttempt :=
    Carries.toAttempt fun _ => carries.storeList _ _
  have kept := passed.trans chains (stores grouped)
  rcases Step.bind_eq_error_iff.1 hnext with hstored | ⟨segment, stored, hstored, hnext⟩
  · rwa [hstored] at kept
  rw [hstored] at kept
  -- the exchange that would give it others has not taken place
  rcases Step.bind_eq_error_iff.1 hnext with hreplaced | ⟨_, _, _, hdone⟩
  · rwa [(replaceShape_error hreplaced).1]
  · cases hdone

/-- If the document has its directives still, or gets them back, all contents are what they were. -/
theorem EvolvesBy.restored (emptied : f.EvolvesBy (Emptied root) g)
    (document : f.directivesOf root = .ok former) (here : g.node? root = some node)
    (accepts : g.Accepts root node (.document former)) :
    f.EvolvesBy rewrites (g.reshape root node (.document former)) := by
  obtain ⟨old, hold, hshape⟩ := directivesOf_eq_ok_iff.1 document
  obtain ⟨later, hlater, becomes⟩ := emptied.node hold
  obtain rfl := Option.some.inj (here.symm.trans hlater)
  have still : node.shape.tag = .document := by
    rw [becomes.tag, hshape]
    rfl
  refine emptied.exchange here still accepts (fun {id a b} hid h => ?_) fun {other} hother => ?_
  · exact absurd h.eq.1 hid
  · obtain rfl := Option.some.inj (hold.symm.trans hother)
    exact Or.inl hshape.symm

/-- What a regrouping that is refused leaves: the forest after falling back, in which the document
may have taken its former directives back. -/
theorem regroupOrRestore_refused {refusal : Refusal} (document : f.directivesOf root = .ok former)
    (run : regroupOrRestore root former members f = .error (.refused refusal) g) :
    ∃ back, f.EvolvesBy (Emptied root) back ∧ back.size = f.size
      ∧ (replaceShape root (.document former) back = .ok () g
        ∨ ∃ failure, replaceShape root (.document former) back = .error failure g) := by
  unfold regroupOrRestore at run
  cases hr : regroup root (f.list former) members f with
  | ok groups h =>
      rw [hr] at run
      cases run
  | error failed h =>
      have emptied := emptied_of_regroup document hr
      rw [hr] at run
      cases failed with
      | fault fault => cases run
      | refused found =>
          have hsize : (h.rollback f.mark).size = f.size := by
            rw [size_rollback]
            exact Nat.min_eq_left emptied.size
          refine ⟨h.rollback f.mark, emptied.rollback, hsize, ?_⟩
          dsimp only at run
          split at run
          · next hs =>
              cases run
              exact Or.inl hs
          · next hs =>
              cases run
              exact Or.inr ⟨_, hs⟩

/-- **A regrouping that is refused leaves the directives or none,** and all other contents. -/
theorem emptied_of_refused {refusal : Refusal}
    (run : regroupDocument root f = .error (.refused refusal) g) :
    f.EvolvesBy (Emptied root) g := by
  rcases regroupDocument_cases root f with ⟨found, hr⟩ | ⟨former, document, ⟨failure, -, hr⟩ |
    ⟨declared, -, hr⟩⟩ <;> rw [hr] at run
  · cases run
    exact EvolvesBy.refl f
  · cases run
    exact EvolvesBy.refl f
  · split at run
    · obtain ⟨back, emptied, -, hs | ⟨failure, hs⟩⟩ := regroupOrRestore_refused document run
      · obtain ⟨node, here, accepts, -, rfl⟩ := replaceShape_eq_ok_iff.1 hs
        exact emptied.restored document here accepts
      · rw [(replaceShape_error hs).1]
        exact emptied
    · cases run

/-- **It leaves all contents if the document may own its former directives in what is left.** -/
theorem contents_of_refused {refusal : Refusal}
    (run : regroupDocument root f = .error (.refused refusal) g)
    (accepts : ∀ former node, f.directivesOf root = .ok former → g.node? root = some node →
      g.Accepts root node (.document former)) : f.EvolvesBy rewrites g := by
  rcases regroupDocument_cases root f with ⟨found, hr⟩ | ⟨former, document, ⟨failure, -, hr⟩ |
    ⟨declared, -, hr⟩⟩ <;> rw [hr] at run
  · cases run
    exact EvolvesBy.refl f
  · cases run
    exact EvolvesBy.refl f
  · split at run
    · obtain ⟨back, emptied, -, hs | ⟨failure, hs⟩⟩ := regroupOrRestore_refused document run
      · obtain ⟨node, here, free, -, rfl⟩ := replaceShape_eq_ok_iff.1 hs
        exact emptied.restored document here free
      · obtain ⟨rfl, -⟩ := replaceShape_error hs
        refine ⟨emptied.toEvolves, fun {id old later} hold hlater => ?_⟩
        rcases emptied.contents hold hlater with hsame | hgone
        · exact Or.inl hsame
        · -- it has given up its directives, so nothing hinders it from owning them again
          obtain ⟨rfl, hshape⟩ := hgone.eq
          have childless : ∀ child ∈ g.childrenOf later, g.contains child := fun child hc => by
            rw [childrenOf, hshape] at hc
            cases hc
          have hdone := replaceShape_eq_ok_iff.2
            ⟨later, hlater, accepts former later document hlater, childless, rfl⟩
          rw [hs] at hdone
          cases hdone
    · cases run

end

end Forest

end SyntaxForest
