/-
**A function and its views.**

A function seen through a closure has no parts of its own; they are looked up at its base.  A lookup
follows the bases as far as they lead, and nothing in it keeps a base from being a view itself, or
from leading back to where the lookup started.  But bases are plain functions, whoever made the
forest, so one step is enough and the fuel of the lookup never runs out.  A function never changes
its parts, so a view has the parts of its base as long as the forest grows, while making the view
takes nothing from the base: it owns no node, and no other node notices it.

Main definitions:

* `FunctionParts.through` — the parts of a function as seen through a closure.

Main results:

* `Forest.Ruled.functionPartsF_eq` — **one step to a base is enough**;
* `Forest.Ruled.exists_functionParts_iff` — functions have parts, and nothing else has;
* `Forest.Ruled.functionParts_declaration` — behind a function is a plain one with the same parts;
* `Forest.exists_specialize_iff` — a function can be seen through a closure exactly when it is a
  plain one, as long as there is room;
* `Forest.Made.functionParts_specialize` — a view has the parts of its base;
* `Forest.views_of_changes` — **after any changes a view shares the parts of its base, for ever.**
-/

import SyntaxForest.Proofs.Forest.Rules
import SyntaxForest.Proofs.Forest.Walks

set_option relaxedAutoImplicit false
set_option autoImplicit false

namespace SyntaxForest

/-- The parts of a function as seen through a closure. -/
def FunctionParts.through (closure : ClosureId) (parts : FunctionParts) : FunctionParts :=
  { parts with closure := some closure }

namespace Forest

variable {f g : Forest} {id base : NodeId} {closure : ClosureId} {parts : FunctionParts}

/-! ### Looking up parts -/

/-- A node is a plain function, a function seen through a closure, or no function. -/
theorem function_cases (f : Forest) (id : NodeId) :
    f.tag? id = some .function
      ∨ (∃ base closure, f.shape? id = some (.specialized base closure))
      ∨ f.isFunction id = false := by
  cases hnode : f.node? id with
  | none => exact Or.inr (Or.inr (by simp [isFunction, tag?, hnode]))
  | some node =>
      cases hshape : node.shape with
      | function name returnType parameters body =>
          exact Or.inl (by rw [tag?_of_node? hnode, hshape]; rfl)
      | specialized base closure =>
          exact Or.inr (Or.inl ⟨base, closure, shape?_eq_some_iff.2 ⟨node, hnode, hshape⟩⟩)
      | literal value =>
          refine Or.inr (Or.inr ?_)
          rw [isFunction, tag?_of_node? hnode, hshape]
          cases value <;> rfl
      | _ =>
          refine Or.inr (Or.inr ?_)
          rw [isFunction, tag?_of_node? hnode, hshape]
          rfl

/-- A plain function has its own parts. -/
theorem functionPartsF_of_tag (htag : f.tag? id = some .function) :
    ∃ parts, parts.declaration = id ∧ parts.closure = none
      ∧ ∀ fuel, f.functionPartsF (fuel + 1) id = .ok parts := by
  obtain ⟨node, hnode, htag⟩ := tag?_eq_some_iff.1 htag
  obtain ⟨name, returnType, parameters, body, hshape⟩ := eq_function_of_tag htag
  refine ⟨⟨id, name, returnType.toOption, parameters, body.toOption, none⟩, rfl, rfl,
    fun fuel => ?_⟩
  simp only [functionPartsF, hnode, hshape]

/-- A plain function is the plain function behind itself, and no closure lies between. -/
theorem functionParts_declaration_of_tag (htag : f.tag? id = some .function)
    (found : f.functionParts id = .ok parts) :
    f.functionParts parts.declaration = .ok { parts with closure := none } := by
  obtain ⟨own, rfl, hplain, hown⟩ := functionPartsF_of_tag htag
  rw [functionParts, hown] at found
  cases found
  rw [functionParts, hown, ← hplain]

/-- The parts of a function seen through a closure are those of its base. -/
theorem functionPartsF_specialized (here : f.shape? id = some (.specialized base closure))
    (fuel : Nat) :
    f.functionPartsF (fuel + 1) id = (f.functionPartsF fuel base).map (·.through closure) := by
  obtain ⟨node, hnode, hshape⟩ := shape?_eq_some_iff.1 here
  simp only [functionPartsF, hnode, hshape]
  cases f.functionPartsF fuel base <;> rfl

/-- What is no function has no parts. -/
theorem functionPartsF_of_not_isFunction (h : f.isFunction id = false) :
    ∃ refusal, ∀ fuel, f.functionPartsF (fuel + 1) id = .error refusal := by
  cases hnode : f.node? id with
  | none => exact ⟨.unknownNode id, fun fuel => by simp only [functionPartsF, hnode]⟩
  | some node =>
      refine ⟨.unexpectedTag id "function" node.shape.tag, fun fuel => ?_⟩
      rw [isFunction, tag?_of_node? hnode] at h
      cases hshape : node.shape with
      | function name returnType parameters body =>
          rw [hshape] at h
          cases h
      | specialized base closure =>
          rw [hshape] at h
          cases h
      | _ => simp only [functionPartsF, hnode, hshape]

theorem isFunction_of_tag (htag : f.tag? id = some .function) : f.isFunction id = true := by
  rw [isFunction, htag]
  rfl

theorem isFunction_of_specialized (here : f.shape? id = some (.specialized base closure)) :
    f.isFunction id = true := by
  obtain ⟨node, hnode, hshape⟩ := shape?_eq_some_iff.1 here
  rw [isFunction, tag?_of_node? hnode, hshape]
  rfl

namespace Ruled

theorem tag?_base (ruled : f.Ruled) (here : f.shape? id = some (.specialized base closure)) :
    f.tag? base = some .function :=
  ruled id _ here

/-- **One step to a base is enough.** -/
theorem functionPartsF_eq (ruled : f.Ruled) (id : NodeId) (fuel : Nat) :
    f.functionPartsF (fuel + 2) id = f.functionParts id := by
  rcases function_cases f id with htag | ⟨base, closure, here⟩ | hnot
  · obtain ⟨parts, -, -, hparts⟩ := functionPartsF_of_tag htag
    rw [functionParts, hparts, hparts]
  · -- the base takes a step, and there are at least two nodes
    obtain ⟨parts, -, -, hparts⟩ := functionPartsF_of_tag (ruled.tag?_base here)
    obtain ⟨node, hnode, -⟩ := shape?_eq_some_iff.1 here
    obtain ⟨others, hsize⟩ := Nat.exists_eq_add_one.2 (Nat.zero_lt_of_lt (lt_size_of_node? hnode))
    rw [functionParts, functionPartsF_specialized here, functionPartsF_specialized here, hparts,
      hsize, hparts]
  · obtain ⟨refusal, hrefused⟩ := functionPartsF_of_not_isFunction hnot
    rw [functionParts, hrefused, hrefused]

theorem functionParts_specialized (ruled : f.Ruled)
    (here : f.shape? id = some (.specialized base closure)) :
    f.functionParts id = (f.functionParts base).map (·.through closure) := by
  rw [← ruled.functionPartsF_eq id 1, functionPartsF_specialized here, ruled.functionPartsF_eq]

/-- Functions have parts, and nothing else has. -/
theorem exists_functionParts_iff (ruled : f.Ruled) :
    (∃ parts, f.functionParts id = .ok parts) ↔ f.isFunction id = true := by
  rcases function_cases f id with htag | ⟨base, closure, here⟩ | hnot
  · obtain ⟨parts, -, -, hparts⟩ := functionPartsF_of_tag htag
    exact ⟨fun _ => isFunction_of_tag htag, fun _ => ⟨parts, hparts _⟩⟩
  · obtain ⟨parts, -, -, hparts⟩ := functionPartsF_of_tag (ruled.tag?_base here)
    refine ⟨fun _ => isFunction_of_specialized here, fun _ => ⟨parts.through closure, ?_⟩⟩
    rw [ruled.functionParts_specialized here, functionParts, hparts]
    rfl
  · obtain ⟨refusal, hrefused⟩ := functionPartsF_of_not_isFunction hnot
    rw [functionParts, hrefused, hnot]
    constructor
    · rintro ⟨parts, h⟩
      cases h
    · intro h
      cases h

/-- Behind a function is a plain one with the same parts. -/
theorem functionParts_declaration (ruled : f.Ruled) (found : f.functionParts id = .ok parts) :
    f.functionParts parts.declaration = .ok { parts with closure := none } := by
  rcases function_cases f id with htag | ⟨base, closure, here⟩ | hnot
  · exact functionParts_declaration_of_tag htag found
  · rw [ruled.functionParts_specialized here] at found
    obtain ⟨own, hown, rfl⟩ := Question.map_eq_ok_iff.1 found
    have hbase := functionParts_declaration_of_tag (ruled.tag?_base here) hown
    exact hbase
  · obtain ⟨refusal, hrefused⟩ := functionPartsF_of_not_isFunction hnot
    rw [functionParts, hrefused] at found
    cases found

/-- The plain function behind a function is behind itself. -/
theorem baseFunction_baseFunction (ruled : f.Ruled) (id : NodeId) :
    (f.baseFunction id >>= f.baseFunction) = f.baseFunction id := by
  rw [baseFunction]
  cases found : f.functionParts id with
  | error refusal => rfl
  | ok parts =>
      change f.baseFunction parts.declaration = .ok parts.declaration
      rw [baseFunction, ruled.functionParts_declaration found]
      rfl

end Ruled

/-! ### Making a view -/

/-- What making a function seen through a closure can do. -/
theorem specialize_eq_ok_iff : specialize base closure f = .ok id g ↔
    f.size < maxWord ∧ f.tag? base = some .function ∧ id = ⟨f.size⟩
      ∧ ∃ node, f.node? base = some node
        ∧ g = f.add (.specialized base closure) node.span (some base) := by
  rw [specialize, insertDerived_eq_ok_iff]
  constructor
  · rintro ⟨node, hnode, admits, hid, hg⟩
    exact ⟨admits.room, checkContents_specialized_iff.1 admits.contents, hid, node, hnode, hg⟩
  · rintro ⟨room, htag, hid, node, hnode, hg⟩
    exact ⟨node, hnode, ⟨room, List.nodup_nil, fun child hc => (nomatch hc),
      checkContents_specialized_iff.2 htag⟩, hid, hg⟩

/-- A function can be seen through a closure exactly when it is a plain one, as long as there is
room. -/
theorem exists_specialize_iff :
    (∃ id g, specialize base closure f = .ok id g) ↔
      f.size < maxWord ∧ f.tag? base = some .function := by
  constructor
  · rintro ⟨id, g, run⟩
    obtain ⟨room, htag, -⟩ := specialize_eq_ok_iff.1 run
    exact ⟨room, htag⟩
  · rintro ⟨room, htag⟩
    obtain ⟨node, hnode, -⟩ := tag?_eq_some_iff.1 htag
    exact ⟨_, _, specialize_eq_ok_iff.2 ⟨room, htag, rfl, node, hnode, rfl⟩⟩

theorem node?_specialize (run : specialize base closure f = .ok id g) :
    ∃ span, g.node? id = some (Node.fresh (.specialized base closure) span (some base)) := by
  obtain ⟨-, -, rfl, node, -, rfl⟩ := specialize_eq_ok_iff.1 run
  exact ⟨node.span, node?_add_self (fun hm => (nomatch hm))⟩

/-- The other nodes do not notice it. -/
theorem node?_stateOf_specialize (base : NodeId) (closure : ClosureId) (h : f.contains id) :
    (stateOf (specialize base closure f)).node? id = f.node? id := by
  cases run : specialize base closure f with
  | error refusal g => rw [insertDerived_refused run, stateOf]
  | ok made g =>
      obtain ⟨-, -, rfl, node, -, rfl⟩ := specialize_eq_ok_iff.1 run
      rw [stateOf, node?_add_of_lt (contains_iff.1 h)]
      cases f.node? id with
      | none => rfl
      | some old => exact congrArg some (adopted_of_notMem List.not_mem_nil)

theorem lists_stateOf_specialize (f : Forest) (base : NodeId) (closure : ClosureId) :
    (stateOf (specialize base closure f)).lists = f.lists := by
  cases run : specialize base closure f with
  | error refusal g => rw [insertDerived_refused run, stateOf]
  | ok made g =>
      obtain ⟨-, -, rfl, node, -, rfl⟩ := specialize_eq_ok_iff.1 run
      exact lists_add _ _ _ _

/-! ### Views along changes -/

open Change

theorem Made.runAll (made : f.Made) (changes : List Change) : (runAll f changes).Made := by
  obtain ⟨former, rfl⟩ := made
  exact ⟨former ++ changes, (runAll_append _ _ _).symm⟩

theorem stateOf_specialize (f : Forest) (base : NodeId) (closure : ClosureId) :
    stateOf (specialize base closure f) = Change.runAll f [.edit (.specialize base closure)] := by
  change _ = Edit.after f (.specialize base closure)
  rw [Edit.after_eq_stateOf, Edit.run, Step.stateOf_map]

theorem Made.functionParts_runAll (made : f.Made) (function : f.isFunction id = true)
    (changes : List Change) : (Change.runAll f changes).functionParts id = f.functionParts id := by
  obtain ⟨parts, found⟩ := made.ruled.exists_functionParts_iff.2 function
  rw [found]
  exact (evolves_runAll f changes).abides.functionParts found

/-- A view has the parts of its base, after any changes. -/
theorem Made.functionParts_specialize (made : f.Made) (run : specialize base closure f = .ok id g)
    (changes : List Change) :
    (Change.runAll g changes).functionParts id
      = (f.functionParts base).map (·.through closure) := by
  have hg : g = Change.runAll f [.edit (.specialize base closure)] := by
    rw [← stateOf_specialize, run, stateOf]
  obtain ⟨-, htag, -⟩ := specialize_eq_ok_iff.1 run
  obtain ⟨span, hnode⟩ := node?_specialize run
  have here : (Change.runAll g changes).shape? id = some (.specialized base closure) :=
    (evolves_runAll g changes).abides.shape? (shape?_of_node? hnode) rfl
  have hbase : (Change.runAll g changes).functionParts base = f.functionParts base := by
    rw [hg, ← runAll_append]
    exact made.functionParts_runAll (isFunction_of_tag htag) _
  have later : (Change.runAll g changes).Made := by
    rw [hg]
    exact (made.runAll _).runAll _
  rw [later.ruled.functionParts_specialized here, hbase]

/-- **A view shares the parts of its base, for ever.**  In any forest that was made by changes,
whatever was handed over: functions have parts, and nothing else has; looking them up takes at most
one step to a base; and the plain function behind a function is its own base.  A node can be seen
through a closure exactly when it is a plain function and there is room.  The view is a new node
without children, without an owner, and without local variables and a name of its own; now and
after any changes it has the parts of its base, seen through the closure.  Trying this changes
neither the children nor the owners of the other nodes, and no change ever changes the parts of a
function. -/
theorem views_of_changes (made : f.Made) (base : NodeId) (closure : ClosureId) :
    (∀ id, (∃ parts, f.functionParts id = .ok parts) ↔ f.isFunction id = true)
      ∧ (∀ id fuel, f.functionPartsF (fuel + 2) id = f.functionParts id)
      ∧ (∀ id, (f.baseFunction id >>= f.baseFunction) = f.baseFunction id)
      ∧ ((∃ id g, specialize base closure f = .ok id g) ↔
          f.size < maxWord ∧ f.tag? base = some .function)
      ∧ (∀ id g, specialize base closure f = .ok id g →
          ¬ f.contains id ∧ g.children? id = some [] ∧ g.parent? id = none ∧ g.locals id = []
            ∧ g.identifier? id = none ∧ ∀ later, (runAll g later).functionParts id
                = (f.functionParts base).map (·.through closure))
      ∧ (∀ id, f.contains id →
          (stateOf (specialize base closure f)).children? id = f.children? id
            ∧ (stateOf (specialize base closure f)).parent? id = f.parent? id)
      ∧ ∀ later id, f.isFunction id = true →
          (runAll f later).functionParts id = f.functionParts id := by
  have ruled := made.ruled
  refine ⟨fun id => ruled.exists_functionParts_iff, ruled.functionPartsF_eq,
    ruled.baseFunction_baseFunction, exists_specialize_iff, fun id g run => ?_,
    fun id known => ⟨?_, ?_⟩, fun later id function => made.functionParts_runAll function later⟩
  · obtain ⟨span, hnode⟩ := node?_specialize run
    -- a specialized function is a new node without children, and all it says comes from its base
    obtain ⟨-, -, rfl, -⟩ := specialize_eq_ok_iff.1 run
    refine ⟨fun known => Nat.lt_irrefl _ (contains_iff.1 known), ?_, ?_, ?_, ?_,
      made.functionParts_specialize run⟩
    · rw [children?, hnode]
      rfl
    · rw [parent?_of_node? hnode]
      rfl
    · rw [locals_of_node? hnode]
      rfl
    · rw [identifier?, info?, hnode]
      rfl
  · rw [children?, children?, node?_stateOf_specialize base closure known]
    have hlists := lists_stateOf_specialize f base closure
    cases f.node? id with
    | none => rfl
    | some node => rw [Option.map_some, Option.map_some, childrenOf, childrenOf, hlists]
  · rw [parent?, parent?, node?_stateOf_specialize base closure known]

/-- A function is seen through a closure; a view of the view is refused. -/
theorem views_of_regrouped_declarations :
    let f := runAll empty (twoDeclarations ++ [.regroup ⟨8⟩])
    f.tag? ⟨1⟩ = some .function ∧ ∃ g, specialize ⟨1⟩ ⟨7⟩ f = .ok ⟨10⟩ g
      ∧ g.children? ⟨10⟩ = some []
      ∧ (runAll g [.regroup ⟨8⟩, .edit (.specialize ⟨10⟩ ⟨8⟩)]).functionParts ⟨10⟩
          = .ok ⟨⟨1⟩, ⟨0⟩, none, Segment.empty, none, some ⟨7⟩⟩ := by
  intro f
  have made : f.Made := ⟨_, rfl⟩
  have plain : f.tag? ⟨1⟩ = some .function := by decide +kernel
  have views := views_of_changes made ⟨1⟩ ⟨7⟩
  obtain ⟨id, g, run⟩ := views.2.2.2.1.2 ⟨by decide +kernel, plain⟩
  obtain ⟨-, -, hid, -⟩ := specialize_eq_ok_iff.1 run
  have hten : (⟨f.size⟩ : NodeId) = ⟨10⟩ := by decide +kernel
  obtain rfl := hid.trans hten
  obtain ⟨-, children, -, -, -, parts⟩ := views.2.2.2.2.1 ⟨10⟩ g run
  refine ⟨plain, g, run, children, ?_⟩
  rw [parts]
  decide +kernel

end Forest

end SyntaxForest
