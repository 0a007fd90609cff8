/-
**An outline has a line for every node.**

An outline is written by a visitor that goes down a tree and stops at the first node without a text,
or at the first with a text that is too far down for a line.  In a forest with a history its visit
is a fold over the walk, so the outline is a sequence of rows, one for each node of the walk and in
its order, or the walk holds a node at which it stops and the first of them says what comes of it.
A row says how far its node is below the root, and then the sort of the node, its text, its type and
whether it is in the source.  The texts of names may hold line breaks, but the rows do not, and so
the line breaks of an outline count the nodes.

What a row says of a node does not depend on the number of the node.  Two trees that correspond
node by node, each in a forest of its own and with names in a table of its own, have the same
outline.

Main definitions:

* `Shape.lacksOperator`, `Shape.shown` — a binary expression without an operator, and the text of
  another shape;
* `Node.row` — the row of a node at a distance from the root;
* `Forest.Below` — how far a node is below a root;
* `Forest.Stops`, `Forest.FirstStop` — the nodes at which an outline stops, and the first of them;
* `Forest.IsRow` — a row of a node in the outline of a root;
* `Forest.Corresponds` — trees that correspond node by node.

Main results:

* `Forest.Treelike.below_iff` — the distance of a node from the root;
* `Forest.Treelike.outline_eq` — an outline is a fold over the walk;
* `Forest.Treelike.outline_eq_unlines` — **an outline is the rows of the walk**;
* `Forest.Treelike.outline_eq_error_iff` — **an outline fails as its first stop says**;
* `Forest.Corresponds.outline` — **trees that correspond have the same outline**.
-/

import SyntaxForest.Forest.Outline
import SyntaxForest.Proofs.Forest.History
import SyntaxForest.Proofs.Forest.Visits
import SyntaxForest.Proofs.Outcome
import SyntaxForest.Proofs.Syntax.LineBreaks

set_option relaxedAutoImplicit false
set_option autoImplicit false

namespace SyntaxForest

/-! ### What a node shows -/

namespace Shape

/-- The name that is the text of a node: an identifier, the name of a type or a group, or an
operator. -/
def shownName? : Shape → Option Name
  | nameIdentifier name => some name
  | typeReference name _ _ => some name
  | overloads name _ => some name
  | binary _ operator _ => some operator
  | unary operator _ => some operator
  | _ => none

/-- The value of a literal. -/
def value? : Shape → Option Literal
  | literal value => some value
  | _ => none

/-- A binary expression without an operator. -/
def lacksOperator : Shape → Bool
  | binary _ operator _ => operator.isEmpty
  | _ => false

/-- The text of a shape: its name in quotes or its value. -/
def shown (names : NameTable) (shape : Shape) : String :=
  match shape.shownName?.map names.text, shape.value? with
  | some name, _ => Text.quoted name
  | none, some value => value.render
  | none, none => ""

theorem newline_notMem_shown (names : NameTable) (shape : Shape) :
    '\n' ∉ (shape.shown names).toList := by
  unfold shown
  split
  · exact Text.newline_notMem_quoted _
  · exact Literal.newline_notMem_render _
  · decide

end Shape

namespace Node

/-- **Every node has a text but for a binary expression without an operator.** -/
theorem text_eq (n : Node) (names : NameTable) (id : NodeId) : n.text names id
    = if n.shape.lacksOperator then .error (.missingOperator id)
      else .ok (n.shape.shown names) := by
  unfold text
  cases n.shape <;> rfl

/-- What the line of a node says: its sort, its text if it has one, its type if it is known, and a
mark if it is not in the source. -/
def words (n : Node) (text : String) : List String :=
  n.shape.tag.name :: ((if text.isEmpty then [] else [text])
    ++ (if n.type.isResolved then [":", n.type.describe] else [])
    ++ (if n.isDerived then ["[injected]"] else []))

/-- The row of a node at a distance from the root: two blanks for each step from the root, and then
the words. -/
def row (n : Node) (distance : Nat) (text : String) : String :=
  String.ofList (List.replicate (2 * distance) ' ') ++ " ".intercalate (n.words text)

/-- **The line of a node is its row with a line break.** -/
theorem render_line (n : Node) (distance : Nat) (text : String) :
    (n.line distance text).render = n.row distance text ++ "\n" := by
  rw [line, row, words, Text.Line.render, Text.blanks_eq]
  refine String.toList_inj.1 ?_
  split <;> split <;> split <;> simp

theorem newline_notMem_row (n : Node) (distance : Nat) {text : String}
    (h : '\n' ∉ text.toList) : '\n' ∉ (n.row distance text).toList := by
  have hwords : ∀ word ∈ n.words text, '\n' ∉ word.toList := by
    unfold words
    intro word hword
    simp only [List.mem_cons, List.mem_append] at hword
    rcases hword with rfl | (hword | hword) | hword
    · exact Tag.newline_notMem_name _
    · split at hword <;> simp at hword
      exact hword ▸ h
    · split at hword <;> simp at hword
      rcases hword with rfl | rfl
      · decide
      · exact TypeId.newline_notMem_describe _
    · split at hword <;> simp at hword
      subst hword
      decide
  rw [row, String.toList_append, String.toList_ofList, List.mem_append, not_or]
  exact ⟨by simp, Text.newline_notMem_intercalate hwords⟩

/-- Two nodes show the same: sort, name, value, type and mark, and both lack an operator or neither
does.  Each has its name from a table of its own. -/
structure SameContents (names names' : NameTable) (n m : Node) : Prop where
  tag : n.shape.tag = m.shape.tag
  name : n.shape.shownName?.map names.text = m.shape.shownName?.map names'.text
  operator : n.shape.lacksOperator = m.shape.lacksOperator
  value : n.shape.value? = m.shape.value?
  type : n.type = m.type
  derived : n.isDerived = m.isDerived

namespace SameContents

variable {names names' : NameTable} {n m : Node}

theorem shown (same : SameContents names names' n m) :
    n.shape.shown names = m.shape.shown names' := by
  rw [Shape.shown, Shape.shown, same.name, same.value]

theorem line (same : SameContents names names' n m) (distance : Nat) (text : String) :
    n.line distance text = m.line distance text := by
  rw [Node.line, Node.line, same.tag, same.type, same.derived]

end SameContents

end Node

namespace Forest

variable {f g : Forest} {names names' : NameTable} {root root' id n : NodeId} {node : Node}
  {ids : List NodeId}

/-! ### Texts -/

/-- A text is refused to a number without a node and to a binary expression without an operator. -/
theorem refusal_of_text {refusal : Refusal} (h : f.text names id = .error refusal) :
    refusal = .unknownNode id ∨ refusal = .missingOperator id := by
  unfold text require at h
  cases hnode : f.node? id with
  | none =>
      rw [hnode] at h
      cases h
      exact Or.inl rfl
  | some node =>
      rw [hnode] at h
      replace h : node.text names id = .error refusal := h
      rw [node.text_eq] at h
      split at h
      · cases h
        exact Or.inr rfl
      · cases h

/-- A node that is a binary expression without an operator. -/
def lacksOperator (f : Forest) (id : NodeId) : Bool :=
  (f.node? id).any (·.shape.lacksOperator)

theorem lacksOperator_of_node? (h : f.node? id = some node) :
    f.lacksOperator id = node.shape.lacksOperator := by
  rw [lacksOperator, h, Option.any_some]

/-! ### Outlines as folds -/

/-- Lines with the line of another node. -/
def withLine (f : Forest) (names : NameTable) (depth : Nat) (id : NodeId)
    (lines : Array Text.Line) : Except Failure (Array Text.Line) :=
  match f.node? id with
  | none => .error (.refused (.unknownNode id))
  | some node =>
      if node.shape.lacksOperator then .error (.refused (.missingOperator id))
      else if Text.maxWidth < 2 * depth then .error (.fault .tooWide)
      else .ok (lines.push (node.line depth (node.shape.shown names)))

theorem withLine_eq (hnode : f.node? id = some node) (depth : Nat) (lines : Array Text.Line) :
    f.withLine names depth id lines
      = if node.shape.lacksOperator then .error (.refused (.missingOperator id))
        else if Text.maxWidth < 2 * depth then .error (.fault .tooWide)
        else .ok (lines.push (node.line depth (node.shape.shown names))) := by
  rw [withLine, hnode]

theorem addLine_eq (f : Forest) (names : NameTable) (depth : Nat) (id : NodeId)
    (lines : Array Text.Line) :
    f.addLine names depth id lines = (f.withLine names depth id lines).map Move.into := by
  unfold addLine withLine require
  cases f.node? id with
  | none => rfl
  | some node =>
      simp only [node.text_eq]
      cases node.shape.lacksOperator with
      | true => rfl
      | false =>
          by_cases wide : Text.maxWidth < 2 * depth
          · simp [wide, Except.map, Node.line]
          · simp [wide, Except.map, Node.line]

/-- **An outline has a line for every node of the walk,** unless it stops at one of them. -/
theorem Treelike.outline_eq (tree : f.Treelike) (names : NameTable) (known : root.raw < f.size) :
    f.outline names root = ((f.walk root).foldlM
      (fun lines id => f.withLine names (f.depth id - f.depth root) id lines) #[]).map
        Text.layOut := by
  rw [outline, tree.visit_eq_foldlM (f.withLine names)
    (fun depth id lines _ => addLine_eq f names depth id lines) known]

theorem outline_of_unknown (names : NameTable) (h : f.size ≤ root.raw) :
    f.outline names root = .error (.refused (.unknownNode root)) := by
  simp only [outline, visit, visitF, addLine, require, node?_eq_none_of_le h, Except.map]

/-! ### Where an outline stops -/

/-- How far a node is below a root: so many steps from a node to one of its children lead there. -/
inductive Below (f : Forest) (root : NodeId) : Nat → NodeId → Prop
  | root : Below f root 0 root
  | child {distance : Nat} {owner child : NodeId} :
      Below f root distance owner → child ∈ f.childList owner → Below f root (distance + 1) child

/-- **A node is so far below a root it is under as it has more owners.** -/
theorem Treelike.below_iff (tree : f.Treelike) {distance : Nat} : f.Below root distance n
    ↔ f.Under n root ∧ f.depth n = f.depth root + distance := by
  constructor
  · intro h
    induction h with
    | root => exact ⟨Relation.ReflTransGen.refl, rfl⟩
    | @child distance owner child _ hc ih =>
        have parent := (tree.linked owner child).1 hc
        refine ⟨Relation.ReflTransGen.head parent ih.1, ?_⟩
        rw [tree.depth_child parent, ih.2, Nat.add_assoc]
  · rintro ⟨under, hdepth⟩
    induction under using Relation.ReflTransGen.head_induction_on generalizing distance with
    | refl =>
        obtain rfl : distance = 0 := by omega
        exact .root
    | @head child owner parent under ih =>
        rw [tree.depth_child parent] at hdepth
        have hle := tree.depth_le_of_under under
        obtain ⟨steps, rfl⟩ : ∃ steps, distance = steps + 1 := ⟨distance - 1, by omega⟩
        exact (ih (by omega)).child ((tree.linked owner child).2 parent)

/-- A node at which the outline of a root stops: a binary expression without an operator, or a node
with a text that is too far below the root for a line. -/
inductive Stops (f : Forest) (root : NodeId) : NodeId → Failure → Prop
  | operator {n : NodeId} : f.lacksOperator n = true →
      Stops f root n (.refused (.missingOperator n))
  | width {n : NodeId} {distance : Nat} : f.lacksOperator n = false →
      f.Below root distance n → Text.maxWidth < 2 * distance → Stops f root n (.fault .tooWide)

/-- What the outline of a root comes to at the first node of the tree at which it stops. -/
def FirstStop (f : Forest) (root : NodeId) (failure : Failure) : Prop :=
  ∃ before n after, f.descendants root = .ok (before ++ n :: after)
    ∧ (∀ m ∈ before, ∀ other, ¬ f.Stops root m other) ∧ f.Stops root n failure

/-- What the outline of a root comes to at a node, if it stops there. -/
def stop? (f : Forest) (root id : NodeId) : Option Failure :=
  if f.lacksOperator id then some (.refused (.missingOperator id))
  else if Text.maxWidth < 2 * (f.depth id - f.depth root) then some (.fault .tooWide)
  else none

theorem Treelike.stops_iff (tree : f.Treelike) (known : root.raw < f.size) {failure : Failure}
    (h : n ∈ f.walk root) : f.Stops root n failure ↔ f.stop? root n = some failure := by
  have under := (tree.mem_walk_iff known).1 h
  have hle := tree.depth_le_of_under under
  unfold stop?
  constructor
  · rintro (lacks | ⟨complete, below, wide⟩)
    · rw [if_pos lacks]
    · have hdepth := (tree.below_iff.1 below).2
      rw [complete, if_neg Bool.false_ne_true, if_pos (by omega)]
  · intro hstop
    split at hstop
    · next lacks =>
      cases hstop
      exact .operator lacks
    · next complete =>
      split at hstop
      · next wide =>
        cases hstop
        refine .width (Bool.eq_false_iff.2 complete) (tree.below_iff.2 ⟨under, ?_⟩) wide
        omega
      · cases hstop

/-- **The first stop of an outline is the first in the walk.** -/
theorem Treelike.firstStop_iff (tree : f.Treelike) (known : root.raw < f.size)
    {failure : Failure} :
    f.FirstStop root failure ↔ (f.walk root).findSome? (f.stop? root) = some failure := by
  rw [List.findSome?_eq_some_iff, FirstStop, tree.descendants_eq known]
  constructor
  · rintro ⟨before, n, after, hwalk, clear, stops⟩
    replace hwalk := Except.ok.inj hwalk
    refine ⟨before, n, after, hwalk, (tree.stops_iff known (by simp [hwalk])).1 stops, ?_⟩
    intro m hm
    refine Option.eq_none_iff_forall_ne_some.2 fun other hother => clear m hm other ?_
    exact (tree.stops_iff known (by simp [hwalk, hm])).2 hother
  · rintro ⟨before, n, after, hwalk, stops, clear⟩
    refine ⟨before, n, after, congrArg Except.ok hwalk, fun m hm other hother => ?_,
      (tree.stops_iff known (by simp [hwalk])).2 stops⟩
    rw [(tree.stops_iff known (by simp [hwalk, hm])), clear m hm] at hother
    cases hother

/-! ### Rows -/

/-- A row of a node in the outline of a root. -/
def IsRow (f : Forest) (names : NameTable) (root id : NodeId) (row : String) : Prop :=
  ∃ node text distance, f.node? id = some node ∧ f.text names id = .ok text
    ∧ f.Below root distance id ∧ row = node.row distance text

/-- The row of a node in the outline of a root. -/
def row (f : Forest) (names : NameTable) (root id : NodeId) : String :=
  ((f.node? id).map fun node =>
    node.row (f.depth id - f.depth root) (node.shape.shown names)).getD ""

theorem row_of_node? (h : f.node? id = some node) : f.row names root id
    = node.row (f.depth id - f.depth root) (node.shape.shown names) := by
  rw [row, h, Option.map_some, Option.getD_some]

/-- The row of a node that has a text. -/
theorem Treelike.isRow (tree : f.Treelike) (known : root.raw < f.size) (h : n ∈ f.walk root)
    (complete : f.lacksOperator n = false) : f.IsRow names root n (f.row names root n) := by
  obtain ⟨node, hnode⟩ := node?_isSome_iff.2 (tree.lt_size_of_mem_walk known h)
  rw [lacksOperator_of_node? hnode] at complete
  have htext : f.text names n = .ok (node.shape.shown names) := by
    rw [text, require_eq_ok_iff.2 hnode]
    simp only [node.text_eq, complete, Bool.false_eq_true, if_false]
  have under := (tree.mem_walk_iff known).1 h
  have below : f.Below root (f.depth n - f.depth root) n :=
    tree.below_iff.2 ⟨under, (Nat.add_sub_cancel' (tree.depth_le_of_under under)).symm⟩
  exact ⟨node, _, _, hnode, htext, below, row_of_node? hnode⟩

theorem newline_notMem_row (f : Forest) (names : NameTable) (root id : NodeId) :
    '\n' ∉ (f.row names root id).toList := by
  unfold row
  cases f.node? id with
  | none => simp
  | some node => exact node.newline_notMem_row _ (node.shape.newline_notMem_shown names)

/-- The line of a node in the outline of a root. -/
def line? (f : Forest) (names : NameTable) (root id : NodeId) : Option Text.Line :=
  (f.node? id).map fun node =>
    node.line (f.depth id - f.depth root) (node.shape.shown names)

/-- **A fold over nodes adds their lines,** unless it stops; what it comes to at the first stop is
what comes of it. -/
theorem foldlM_withLine (known : ∀ id ∈ ids, id.raw < f.size) (lines : Array Text.Line) :
    ids.foldlM (fun lines id => f.withLine names (f.depth id - f.depth root) id lines) lines
      = match ids.findSome? (f.stop? root) with
        | some failure => .error failure
        | none => .ok (lines ++ ids.filterMap (f.line? names root)) := by
  induction ids generalizing lines with
  | nil => simp [pure, Except.pure]
  | cons id rest ih =>
      rw [List.forall_mem_cons] at known
      obtain ⟨node, hnode⟩ := node?_isSome_iff.2 known.1
      rw [List.foldlM_cons, withLine_eq hnode, List.findSome?_cons, stop?,
        lacksOperator_of_node? hnode]
      cases node.shape.lacksOperator with
      | true => rfl
      | false =>
          simp only [Bool.false_eq_true, if_false]
          by_cases wide : Text.maxWidth < 2 * (f.depth id - f.depth root)
          · rw [if_pos wide, if_pos wide]
            rfl
          · rw [if_neg wide, if_neg wide]
            refine (ih known.2 _).trans ?_
            cases rest.findSome? (f.stop? root) with
            | some failure => rfl
            | none => simp [line?, hnode]

/-- Lines that are laid out are rows with line breaks. -/
theorem layOut_lines (known : ∀ id ∈ ids, id.raw < f.size) :
    Text.layOut (ids.filterMap (f.line? names root)).toArray
      = Text.unlines (ids.map (f.row names root)) := by
  have rendered : (ids.filterMap (f.line? names root)).map Text.Line.render
      = (ids.map (f.row names root)).map (· ++ "\n") := by
    induction ids with
    | nil => rfl
    | cons id rest ih =>
        rw [List.forall_mem_cons] at known
        obtain ⟨node, hnode⟩ := node?_isSome_iff.2 known.1
        have hline : f.line? names root id
            = some (node.line (f.depth id - f.depth root) (node.shape.shown names)) := by
          rw [line?, hnode, Option.map_some]
        rw [List.filterMap_cons_some hline, List.map_cons, List.map_cons, List.map_cons, ih known.2,
          node.render_line, row_of_node? hnode]
  rw [Text.layOut, List.foldl_toArray, ← List.foldl_map, rendered]
  rfl

/-- **An outline is the rows of the walk,** unless it stops at a node of the walk. -/
theorem Treelike.outline_eq_unlines (tree : f.Treelike) (names : NameTable)
    (known : root.raw < f.size) : f.outline names root
      = match (f.walk root).findSome? (f.stop? root) with
        | some failure => .error failure
        | none => .ok (Text.unlines ((f.walk root).map (f.row names root))) := by
  have inside : ∀ id ∈ f.walk root, id.raw < f.size := fun id h => tree.lt_size_of_mem_walk known h
  rw [tree.outline_eq names known, foldlM_withLine inside]
  cases (f.walk root).findSome? (f.stop? root) with
  | some failure => rfl
  | none =>
      refine congrArg Except.ok (Eq.trans (congrArg Text.layOut ?_) (layOut_lines inside))
      simp

/-- **An outline fails as its first stop says.** -/
theorem Treelike.outline_eq_error_iff (tree : f.Treelike) (names : NameTable)
    (known : root.raw < f.size) {failure : Failure} :
    f.outline names root = .error failure ↔ f.FirstStop root failure := by
  rw [tree.firstStop_iff known, tree.outline_eq_unlines names known]
  cases (f.walk root).findSome? (f.stop? root) with
  | some found => simp
  | none => simp

/-- An outline is at fault where its first stop is a line that is too wide. -/
theorem Treelike.outline_eq_fault_iff (tree : f.Treelike) (names : NameTable) {fault : Fault} :
    f.outline names root = .error (.fault fault) ↔ f.FirstStop root (.fault fault) := by
  by_cases known : root.raw < f.size
  · exact tree.outline_eq_error_iff names known
  · rw [outline_of_unknown names (Nat.le_of_not_lt known)]
    refine ⟨fun h => (nomatch h), fun ⟨before, n, after, hwalk, _⟩ => ?_⟩
    rw [descendants, if_neg (mt contains_iff.1 known)] at hwalk
    exact absurd (Except.ok.inj hwalk) (by simp)

/-! ### Trees that correspond -/

/-- A relation that matches the nodes of two trees: they show the same, and their children are
matched one by one. -/
structure Corresponds (f : Forest) (names : NameTable) (g : Forest) (names' : NameTable)
    (matched : NodeId → NodeId → Prop) : Prop where
  contents : ∀ {a b}, matched a b → ∃ n m, f.node? a = some n ∧ g.node? b = some m
    ∧ Node.SameContents names names' n m
  children : ∀ {a b}, matched a b → List.Forall₂ matched (f.childList a) (g.childList b)

/-- Two questions come to the same: an answer, a fault, or refusals at nodes that are matched. -/
inductive SameOutcome {α : Type} (matched : NodeId → NodeId → Prop) :
    Except Failure α → Except Failure α → Prop
  | answer (answer : α) : SameOutcome matched (.ok answer) (.ok answer)
  | fault (found : Fault) :
      SameOutcome matched (.error (.fault found)) (.error (.fault found))
  | refused {a b : NodeId} : matched a b →
      SameOutcome matched (.error (.refused (.missingOperator a)))
        (.error (.refused (.missingOperator b)))

section Corresponds

variable {matched : NodeId → NodeId → Prop} {a b : NodeId}

/-- What is made of the answers does not matter. -/
theorem SameOutcome.map {α β : Type} {make : α → β} {found found' : Except Failure α}
    (same : SameOutcome matched found found') :
    SameOutcome matched (found.map make) (found'.map make) := by
  cases same with
  | answer answer => exact .answer (make answer)
  | fault fault => exact .fault fault
  | refused hab => exact .refused hab

/-- Folds over matched nodes come to the same if their steps do. -/
theorem SameOutcome.foldlM {α : Type} {step step' : α → NodeId → Except Failure α}
    (same : ∀ {a b}, matched a b → ∀ state, SameOutcome matched (step state a) (step' state b))
    {as bs : List NodeId} (h : List.Forall₂ matched as bs) (state : α) :
    SameOutcome matched (as.foldlM step state) (bs.foldlM step' state) := by
  induction h generalizing state with
  | nil => exact .answer state
  | @cons a b as bs hab _ ih =>
      rw [List.foldlM_cons, List.foldlM_cons]
      have hstep := same hab state
      revert hstep
      generalize step state a = found
      generalize step' state b = found'
      rintro (answer | fault | hrefused)
      · exact ih answer
      · exact .fault fault
      · exact .refused hrefused

/-- At matched nodes the same line is added, or there is none at either. -/
theorem Corresponds.withLine (corresponds : f.Corresponds names g names' matched)
    (hab : matched a b) (depth : Nat) (lines : Array Text.Line) :
    SameOutcome matched (f.withLine names depth a lines) (g.withLine names' depth b lines) := by
  obtain ⟨n, m, hn, hm, same⟩ := corresponds.contents hab
  rw [withLine_eq hn, withLine_eq hm, ← same.operator, ← same.shown, ← same.line]
  split
  · exact .refused hab
  · split
    · exact .fault .tooWide
    · exact .answer _

/-- Visits of matched nodes at one depth and with as many levels come to the same. -/
theorem Corresponds.visitF (corresponds : f.Corresponds names g names' matched)
    (hab : matched a b) (fuel depth : Nat) (lines : Array Text.Line) :
    SameOutcome matched (f.visitF (f.addLine names) fuel depth a lines)
      (g.visitF (g.addLine names') fuel depth b lines) := by
  induction fuel generalizing a b depth lines with
  | zero => exact .fault .endless
  | succ fuel ih =>
      obtain ⟨n, m, hn, hm, -⟩ := corresponds.contents hab
      have hline := corresponds.withLine hab depth lines
      simp only [Forest.visitF, addLine_eq, children?_of_node? hn, children?_of_node? hm]
      revert hline
      generalize f.withLine names depth a lines = found
      generalize g.withLine names' depth b lines = found'
      rintro (later | fault | hrefused)
      · exact .foldlM (fun hcd lines => ih hcd (depth + 1) lines) (corresponds.children hab) later
      · exact .fault fault
      · exact .refused hrefused

/-- An outline may be written with more levels than there are. -/
theorem Treelike.outline_eq_visitF (tree : f.Treelike) (known : root.raw < f.size) {fuel : Nat}
    (le : f.size + 1 ≤ fuel) : f.outline names root
      = (f.visitF (f.addLine names) fuel 0 root #[]).map Text.layOut :=
  have enough := tree.suffices_succ_size known
  congrArg (Except.map Text.layOut)
    (tree.visitF_congr (fun depth id lines _ => addLine_eq f names depth id lines) enough
      (enough.mono le))

/-- **Trees that correspond have the same outline,** or it stops at nodes that correspond. -/
theorem Corresponds.outline (corresponds : f.Corresponds names g names' matched)
    (tree : f.Treelike) (tree' : g.Treelike) (h : matched root root') :
    SameOutcome matched (f.outline names root) (g.outline names' root') := by
  obtain ⟨n, m, hn, hm, -⟩ := corresponds.contents h
  -- the two forests may have different numbers of nodes, so both visits get the larger one
  rw [tree.outline_eq_visitF (lt_size_of_node? hn) (Nat.succ_le_succ (Nat.le_max_left _ g.size)),
    tree'.outline_eq_visitF (lt_size_of_node? hm) (Nat.succ_le_succ (Nat.le_max_right f.size _))]
  exact (corresponds.visitF h _ 0 #[]).map

end Corresponds

end Forest

end SyntaxForest
