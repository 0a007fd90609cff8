/-
**How far down an outline reaches.**

The indentation of a line is a field of blanks, and a field cannot be wider than 65535.  So an
outline breaks off at the first node that is more than 32767 steps below its root, without a text
and without a refusal, while a walk goes on to any depth.  A binary expression without an operator
is named only if it comes before that node: behind a branch that is too deep nobody sees it.

Deep trees are cheap to make.  A number may be negated as often as one likes, and every negation is
a step further down.

Main definitions:

* `Forest.Chain` — nodes of which each owns the one before it;
* `Forest.Tower` — a forest with negations over its last node;
* `Forest.negations` — the changes that make them.

Main results:

* `Forest.Treelike.firstStop_of_branch` — an outline stops in a branch that is too deep;
* `Forest.Tower.runAll` — negations are made as long as there is room;
* `Forest.outline_of_history` — **an outline has a line for every node down to that depth.**
-/

import SyntaxForest.Proofs.Forest.Outlines

set_option relaxedAutoImplicit false
set_option autoImplicit false

namespace SyntaxForest

namespace Forest

variable {f g : Forest} {root branch n child : NodeId} {first count distance : Nat}
  {shape : Shape} {span : Span} {donor : Option NodeId}

/-! ### Deep branches -/

theorem Below.of_child (hc : child ∈ f.childList root) (below : f.Below child distance n) :
    f.Below root (distance + 1) n := by
  induction below with
  | root => exact .child .root hc
  | child _ hn ih => exact ih.child hn

/-- A walk that holds a node too far down and no binary expression without an operator has a stop,
and this is the width of a line. -/
theorem Treelike.findSome?_stop? (tree : f.Treelike) (known : root.raw < f.size)
    (complete : ∀ n ∈ f.walk branch, f.lacksOperator n = false)
    (under : ∀ n ∈ f.walk branch, n ∈ f.walk root) (hn : n ∈ f.walk branch)
    (below : f.Below root distance n) (wide : Text.maxWidth < 2 * distance) :
    (f.walk branch).findSome? (f.stop? root) = some (.fault .tooWide) := by
  have stops := (tree.stops_iff known (under n hn)).1 (.width (complete n hn) below wide)
  cases hfound : (f.walk branch).findSome? (f.stop? root) with
  | none =>
      rw [List.findSome?_eq_none_iff.1 hfound n hn] at stops
      cases stops
  | some failure =>
      obtain ⟨m, hm, hstop⟩ := List.exists_of_findSome?_eq_some hfound
      cases (tree.stops_iff known (under m hm)).2 hstop with
      | operator lacks =>
          rw [complete m hm] at lacks
          cases lacks
      | width => rfl

/-- **An outline stops in its first branch** if there every binary expression has an operator and
some node is too far down. -/
theorem Treelike.firstStop_of_branch (tree : f.Treelike) (known : root.raw < f.size)
    {rest : List NodeId} (children : f.childList root = branch :: rest)
    (operator : f.lacksOperator root = false)
    (complete : ∀ n ∈ f.walk branch, f.lacksOperator n = false) (hn : n ∈ f.walk branch)
    (below : f.Below branch distance n) (wide : Text.maxWidth < 2 * (distance + 1)) :
    f.FirstStop root (.fault .tooWide) := by
  have hc : branch ∈ f.childList root := children ▸ List.mem_cons_self
  have hwalk : f.walk root = root :: (f.walk branch ++ rest.flatMap f.walk) := by
    rw [tree.walk_eq known, children, List.flatMap_cons]
  have under : ∀ n ∈ f.walk branch, n ∈ f.walk root := fun n hn => by simp [hwalk, hn]
  have here : f.stop? root root = none := by
    simp [stop?, operator]
  rw [tree.firstStop_iff known, hwalk, List.findSome?_cons, here, List.findSome?_append,
    tree.findSome?_stop? known complete under hn (.of_child hc below) wide]
  rfl

/-- **In a tree that is not too deep an outline stops only for want of an operator.** -/
theorem Treelike.firstStop_of_shallow (tree : f.Treelike) (known : root.raw < f.size)
    (shallow : ∀ distance n, f.Below root distance n → 2 * distance ≤ Text.maxWidth)
    {failure : Failure} : f.FirstStop root failure ↔ ∃ n,
      (f.walk root).find? f.lacksOperator = some n ∧ failure = .refused (.missingOperator n) := by
  rw [FirstStop, tree.descendants_eq known]
  constructor
  · rintro ⟨before, n, after, hwalk, clear, lacks | ⟨-, below, wide⟩⟩
    · refine ⟨n, List.find?_eq_some_iff_append.2
        ⟨lacks, before, after, Except.ok.inj hwalk, fun m hm => ?_⟩, rfl⟩
      rw [Bool.not_eq_true']
      exact Bool.eq_false_iff.2 fun hlacks => clear m hm _ (.operator hlacks)
    · exact absurd (shallow _ _ below) (Nat.not_le_of_lt wide)
  · rintro ⟨n, hfind, rfl⟩
    obtain ⟨lacks, before, after, hwalk, complete⟩ := List.find?_eq_some_iff_append.1 hfind
    refine ⟨before, n, after, congrArg Except.ok hwalk, fun m hm other stops => ?_,
      .operator lacks⟩
    cases stops with
    | operator hlacks => exact absurd hlacks (by simpa using complete m hm)
    | width _ below wide => exact absurd (shallow _ _ below) (Nat.not_le_of_lt wide)

/-! ### Chains -/

/-- Nodes with numbers in a row: the first owns nothing, each other one the node before it, and none
of them is a binary expression without an operator. -/
structure Chain (f : Forest) (first count : Nat) : Prop where
  known : first + count < f.size
  bottom : f.childList ⟨first⟩ = []
  step : ∀ place < count, f.childList ⟨first + (place + 1)⟩ = [⟨first + place⟩]
  complete : ∀ place ≤ count, f.lacksOperator ⟨first + place⟩ = false

namespace Chain

theorem shorter (chain : f.Chain first (count + 1)) : f.Chain first count where
  known := Nat.lt_of_succ_lt chain.known
  bottom := chain.bottom
  step place h := chain.step place (Nat.lt_succ_of_lt h)
  complete place h := chain.complete place (Nat.le_succ_of_le h)

/-- The first node of a chain is as far below the last as the chain is long. -/
theorem below (chain : f.Chain first count) : f.Below ⟨first + count⟩ count ⟨first⟩ := by
  induction count with
  | zero => exact .root
  | succ count ih =>
      refine .of_child ?_ (ih chain.shorter)
      rw [chain.step count (Nat.lt_succ_self count)]
      exact List.mem_singleton_self _

theorem walk (chain : f.Chain first count) (tree : f.Treelike) : f.walk ⟨first + count⟩
    = (List.range (count + 1)).reverse.map fun place => (⟨first + place⟩ : NodeId) := by
  induction count with
  | zero => rw [tree.walk_eq chain.known, Nat.add_zero, chain.bottom]; rfl
  | succ count ih =>
      rw [tree.walk_eq chain.known, chain.step count (Nat.lt_succ_self count),
        List.flatMap_singleton, ih chain.shorter, List.range_succ (n := count + 1),
        List.reverse_append]
      rfl

theorem lacksOperator_of_mem (chain : f.Chain first count) (tree : f.Treelike)
    (h : n ∈ f.walk ⟨first + count⟩) : f.lacksOperator n = false := by
  rw [chain.walk tree, List.mem_map] at h
  obtain ⟨place, hplace, rfl⟩ := h
  rw [List.mem_reverse, List.mem_range] at hplace
  exact chain.complete place (Nat.le_of_lt_succ hplace)

end Chain

theorem lacksOperator_add_of_lt (h : n.raw < f.size) :
    (f.add shape span donor).lacksOperator n = f.lacksOperator n := by
  obtain ⟨node, hnode⟩ := node?_isSome_iff.2 h
  obtain ⟨later, hlater, hshape⟩ : ∃ later, (f.add shape span donor).node? n = some later
      ∧ later.shape = node.shape := exists_node?_add hnode
  rw [lacksOperator_of_node? hnode, lacksOperator_of_node? hlater, hshape]

theorem lacksOperator_add_self (admits : f.Admits shape span) :
    (f.add shape span donor).lacksOperator ⟨f.size⟩ = shape.lacksOperator :=
  lacksOperator_of_node? (node?_add_self admits.notMem_children)

/-- A new node leaves a chain alone. -/
theorem Chain.add (chain : f.Chain first count) : (f.add shape span donor).Chain first count where
  known := by
    rw [size_add]
    exact Nat.lt_succ_of_lt chain.known
  bottom := by
    have := chain.known
    rw [childList_add_of_ne (show first ≠ f.size by omega), chain.bottom]
  step place h := by
    have := chain.known
    rw [childList_add_of_ne (show first + (place + 1) ≠ f.size by omega), chain.step place h]
  complete place h := by
    have := chain.known
    rw [lacksOperator_add_of_lt (show first + place < f.size by omega), chain.complete place h]

/-- Keeping a sequence leaves a chain alone. -/
theorem Chain.keep (chain : f.Chain first count) (tree : f.Treelike) (ids : List NodeId) :
    (f.keep ids).Chain first count where
  known := chain.known
  bottom := (childList_keep tree.stored ids _).trans chain.bottom
  step place h := (childList_keep tree.stored ids _).trans (chain.step place h)
  complete := chain.complete

/-! ### Negations -/

theorem entries_of_lt {id : NodeId} (h : id.raw < maxWord) : id.entries = [id] := by
  refine if_pos ?_
  rw [NodeId.isPresent, decide_eq_true_eq]
  rintro rfl
  exact absurd h (by decide)

/-- A forest that came from another one: its last node is the other end of a chain of negations
that are made over the node with the number `first`. -/
structure Tower (f g : Forest) (first count : Nat) : Prop where
  size : g.size = first + count + 1
  lists : g.lists = f.lists
  chain : g.Chain first count
  /-- Nobody owns the last node, and it can be negated. -/
  free : ∃ node, g.node? ⟨first + count⟩ = some node ∧ node.parent = none
    ∧ node.shape.tag.isExpression = true
  /-- The nodes before the chain are untouched. -/
  other : ∀ {id : NodeId}, id.raw < first → g.node? id = f.node? id

namespace Tower

variable (tower : Tower f g first count) (room : first + count + 1 < maxWord)

include room in
theorem children : (Shape.negation ⟨first + count⟩).children g.lists = [⟨first + count⟩] :=
  entries_of_lt (Nat.lt_of_succ_lt room)

include tower room

theorem admits : g.Admits (.negation ⟨first + count⟩) span := by
  obtain ⟨node, hnode, hparent, -⟩ := tower.free
  refine ⟨tower.size ▸ room, by simp [children room], fun child hc => ?_, rfl⟩
  rw [children room, List.mem_singleton] at hc
  subst hc
  exact ⟨node, hnode, Or.inl hparent⟩

/-- With one negation more. -/
theorem next : Tower f (g.add (.negation ⟨first + count⟩) span none) first (count + 1) := by
  have admits : g.Admits (.negation ⟨first + count⟩) span := tower.admits room
  have last : (⟨first + (count + 1)⟩ : NodeId) = ⟨g.size⟩ := by rw [tower.size, Nat.add_assoc]
  have hnode : (g.add (.negation ⟨first + count⟩) span none).node? ⟨g.size⟩ = _ :=
    node?_add_self admits.notMem_children
  refine ⟨by rw [size_add, tower.size]; rfl, by rw [lists_add, tower.lists], ?_,
    ⟨_, by rw [last]; exact hnode, rfl, rfl⟩, fun {id} h => ?_⟩
  · have kept : (g.add (.negation ⟨first + count⟩) span none).Chain first count := tower.chain.add
    refine ⟨by rw [size_add, tower.size]; omega, kept.bottom, fun place h => ?_, fun place h => ?_⟩
    · rcases Nat.lt_succ_iff_lt_or_eq.1 h with h | rfl
      · exact kept.step place h
      · rw [last, childList_add_self admits, children room]
    · rcases Nat.le_succ_iff.1 h with h | rfl
      · exact kept.complete place h
      · rw [last, lacksOperator_add_self admits]
        rfl
  · have hlt : id.raw < g.size := by rw [tower.size]; omega
    rw [node?_add_of_lt hlt, tower.other h, children room]
    have hne : id ∉ [(⟨first + count⟩ : NodeId)] := by
      rintro hmem
      rw [List.mem_singleton.1 hmem] at h
      exact absurd h (by simp)
    cases f.node? id with
    | none => rfl
    | some node => exact congrArg some (adopted_of_notMem hne)

end Tower

/-- The changes that negate the node `first`, then its negation, and so on. -/
def negations (first : Nat) : Nat → List Change
  | 0 => []
  | count + 1 => negations first count ++ [.edit (.insert (.negation ⟨first + count⟩) ⟨0, 1⟩)]

theorem Change.after_insert (admits : f.Admits shape span) :
    Change.after f (.edit (.insert shape span)) = f.add shape span none := by
  have run : (Edit.insert shape span).run f = .ok (.node ⟨f.size⟩) (f.add shape span none) :=
    Step.map_eq_ok_iff.2 ⟨_, insert_eq_ok_iff.2 ⟨admits, rfl, rfl⟩, rfl⟩
  rw [Change.after, Edit.after, run]

/-- **Negations are made as long as there is room.** -/
theorem Tower.runAll (tower : Tower f f first 0) (room : first + count + 1 < maxWord) :
    Tower f (Change.runAll f (negations first count)) first count := by
  induction count with
  | zero => exact tower
  | succ count ih =>
      have before := ih (by omega)
      rw [negations, Change.runAll_append, Change.runAll, List.foldl_cons, List.foldl_nil,
        Change.after_insert (before.admits (by omega))]
      exact before.next (by omega)

/-! ### A chain and another branch -/

namespace Tower

variable {other : NodeId} {operator : Name}

/-- The last negation and a node from before the chain can be put under a new node. -/
theorem admits_pair (tower : Tower f g first count) (room : first + count + 1 < maxWord)
    (before : other.raw < first) (free : ∃ node, f.node? other = some node ∧ node.parent = none)
    (children : (shape.children g.lists).Perm [⟨first + count⟩, other])
    (contents : g.checkContents shape span = .ok ()) : g.Admits shape span := by
  refine ⟨tower.size ▸ room, children.nodup_iff.2 ?_, fun child hc => ?_, contents⟩
  · rw [List.nodup_cons, List.mem_singleton]
    refine ⟨?_, List.nodup_singleton _⟩
    rintro rfl
    exact absurd before (by simp)
  · rw [children.mem_iff, List.mem_cons, List.mem_singleton] at hc
    rcases hc with rfl | rfl
    · obtain ⟨node, hnode, hparent, -⟩ := tower.free
      exact ⟨node, hnode, Or.inl hparent⟩
    · obtain ⟨node, hnode, hparent⟩ := free
      exact ⟨node, (tower.other before).trans hnode, Or.inl hparent⟩

theorem children_binary (room : first + count + 1 < maxWord) (before : other.raw < first) :
    (Shape.binary ⟨first + count⟩ operator other).children g.lists = [⟨first + count⟩, other] := by
  rw [Shape.children, entries_of_lt (Nat.lt_of_succ_lt room), entries_of_lt (by omega)]
  rfl

/-- **The outline of the expression breaks off in the chain,** if this is long, and does not come to
the other branch, while the walk does. -/
theorem outline_binary (tower : Tower f g first count) (room : first + count + 1 < maxWord)
    (before : other.raw < first) (free : ∃ node, f.node? other = some node ∧ node.parent = none)
    (named : operator.isEmpty = false) (lacks : f.lacksOperator other = true)
    (deep : Text.maxWidth < 2 * (count + 1)) (names : NameTable)
    (tree : (g.add (.binary ⟨first + count⟩ operator other) span none).Treelike) :
    (∃ ids, (g.add (.binary ⟨first + count⟩ operator other) span none).descendants ⟨g.size⟩
          = .ok ids
        ∧ ids.find? (g.add (.binary ⟨first + count⟩ operator other) span none).lacksOperator
          = some other)
      ∧ (g.add (.binary ⟨first + count⟩ operator other) span none).outline names ⟨g.size⟩
        = .error (.fault .tooWide) := by
  have admits : g.Admits (.binary ⟨first + count⟩ operator other) span :=
    tower.admits_pair room before free (.of_eq (children_binary room before)) rfl
  generalize hshape : Shape.binary ⟨first + count⟩ operator other = shape at *
  have chain : (g.add shape span none).Chain first count := tower.chain.add
  have known : (⟨g.size⟩ : NodeId).raw < (g.add shape span none).size := by
    rw [size_add]
    exact Nat.lt_succ_self _
  have hlt : other.raw < (g.add shape span none).size := by
    rw [size_add, tower.size]
    omega
  have children : (g.add shape span none).childList ⟨g.size⟩ = [⟨first + count⟩, other] := by
    rw [childList_add_self admits, ← hshape, children_binary room before]
  have complete : (g.add shape span none).lacksOperator ⟨g.size⟩ = false := by
    rw [lacksOperator_add_self admits, ← hshape]
    exact named
  have missing : (g.add shape span none).lacksOperator other = true := by
    rw [lacksOperator_add_of_lt (by rw [tower.size]; omega), lacksOperator, tower.other before]
    exact lacks
  generalize g.add shape span none = h at *
  have inChain : ∀ n ∈ h.walk ⟨first + count⟩, h.lacksOperator n = false :=
    fun n hn => chain.lacksOperator_of_mem tree hn
  refine ⟨⟨_, tree.descendants_eq known, ?_⟩, ?_⟩
  · -- the walk passes the whole chain and comes to the other branch
    have passed : (h.walk ⟨first + count⟩).find? h.lacksOperator = none :=
      List.find?_eq_none.2 fun n hn => by simp [inChain n hn]
    rw [tree.walk_eq known, children, List.find?_cons, complete, List.flatMap_cons,
      List.find?_append, passed, List.flatMap_singleton, tree.walk_eq hlt, List.find?_cons, missing]
    rfl
  · -- the outline comes to the end of the chain first
    refine (tree.outline_eq_error_iff names known).2 ?_
    have below := chain.below
    refine tree.firstStop_of_branch known children complete inChain ?_ below deep
    exact (tree.mem_walk_iff chain.known).2 (tree.below_iff.1 below).1

end Tower

/-! ### Outlines in forests with histories -/

/-- **An outline has a line for every node.**  In a forest with a history, and whatever texts the
names have, the outline of a root fails exactly if it stops at a node of the walk: the first such
node is a binary expression without an operator, and it is named, or it has a text and is more than
32767 steps below the root, and the outline breaks off.  Otherwise it is a text with as many line
breaks as the walk has nodes; between them are rows, one for each node of the walk and in its order,
and each of them is indented by twice the distance of its node from the root and has the sort, the
text, the type and the mark of the node.  In a tree that is not so deep only a binary expression
without an operator is in the way, and the first of the walk is named.  In every other forest with a
history, and with every other table of names, an outline of a tree that corresponds comes to the
same. -/
theorem outline_of_history (grown : f.Grown) (names : NameTable) (known : f.contains root) :
    ∃ ids, f.descendants root = .ok ids
      ∧ (∀ failure, f.outline names root = .error failure ↔ f.FirstStop root failure)
      ∧ ((∀ failure, ¬ f.FirstStop root failure) → ∃ text rows, f.outline names root = .ok text
          ∧ text.toList.count '\n' = ids.length
          ∧ text.toList.splitOn '\n' = rows.map String.toList ++ [[]]
          ∧ List.Forall₂ (f.IsRow names root) ids rows)
      ∧ ((∀ distance n, f.Below root distance n → 2 * distance ≤ Text.maxWidth) →
          ∀ failure, f.FirstStop root failure ↔ ∃ n, ids.find? f.lacksOperator = some n
            ∧ failure = .refused (.missingOperator n))
      ∧ ∀ (g : Forest) (names' : NameTable) (root' : NodeId) (matched : NodeId → NodeId → Prop),
          g.Grown → f.Corresponds names g names' matched → matched root root' →
          SameOutcome matched (f.outline names root) (g.outline names' root') := by
  have tree := grown.treelike
  have inside := contains_iff.1 known
  refine ⟨f.walk root, tree.descendants_eq inside,
    fun failure => tree.outline_eq_error_iff names inside, fun clear => ?_,
    fun shallow failure => tree.firstStop_of_shallow inside shallow,
    fun g names' root' matched grown' corresponds h =>
      corresponds.outline tree grown'.treelike h⟩
  have hclear : (f.walk root).findSome? (f.stop? root) = none :=
    Option.eq_none_iff_forall_ne_some.2 fun failure h =>
      clear failure ((tree.firstStop_iff inside).2 h)
  have houtline := tree.outline_eq_unlines names inside
  rw [hclear] at houtline
  -- a row has no line break, so the line breaks are those between the rows
  have single : ∀ line ∈ (f.walk root).map (f.row names root), '\n' ∉ line.toList := by
    intro line hline
    obtain ⟨id, -, rfl⟩ := List.mem_map.1 hline
    exact f.newline_notMem_row names root id
  refine ⟨_, _, houtline, ?_, Text.splitOn_unlines single, ?_⟩
  · rw [Text.count_unlines single, List.length_map]
  · rw [List.forall₂_map_right_iff, List.forall₂_same]
    intro n hn
    refine tree.isRow inside hn (Bool.eq_false_iff.2 fun lacks => ?_)
    have stop := List.findSome?_eq_none_iff.1 hclear n hn
    rw [stop?, if_pos lacks] at stop
    cases stop

/-- The texts of a plus sign and of an identifier with a line break. -/
def signFirst : NameTable := ⟨#["", "+", "a\nb"]⟩

/-- The same two texts, numbered the other way round. -/
def signLast : NameTable := ⟨#["", "a\nb", "+"]⟩

/-- A variable plus a literal with a type; the variable is made first. -/
def variableFirst : List Change :=
  [ .edit (.insert (.nameIdentifier ⟨2⟩) ⟨0, 1⟩),
    .edit (.insert (.variableReference ⟨0⟩) ⟨0, 1⟩),
    .edit (.insert (.literal (.boolean true)) ⟨2, 3⟩),
    .edit (.insert (.binary ⟨1⟩ ⟨1⟩ ⟨2⟩) ⟨0, 3⟩),
    .edit (.setType ⟨2⟩ ⟨4⟩) ]

/-- The same with other numbers: a literal that nothing owns is made first, then the other one. -/
def literalFirst : List Change :=
  [ .edit (.insert (.literal .null) ⟨9, 9⟩),
    .edit (.insert (.literal (.boolean true)) ⟨2, 3⟩),
    .edit (.setType ⟨1⟩ ⟨4⟩),
    .edit (.insert (.nameIdentifier ⟨1⟩) ⟨0, 1⟩),
    .edit (.insert (.variableReference ⟨2⟩) ⟨0, 1⟩),
    .edit (.insert (.binary ⟨3⟩ ⟨2⟩ ⟨1⟩) ⟨0, 3⟩) ]

/-- The nodes of the two sums that correspond. -/
inductive MatchedSums : NodeId → NodeId → Prop
  | sum : MatchedSums ⟨3⟩ ⟨4⟩
  | variable : MatchedSums ⟨1⟩ ⟨3⟩
  | name : MatchedSums ⟨0⟩ ⟨2⟩
  | literal : MatchedSums ⟨2⟩ ⟨1⟩

/-- Both sums have one outline, of four lines. -/
theorem outline_of_two_orders :
    (Change.runAll empty variableFirst).Grown ∧ (Change.runAll empty literalFirst).Grown
      ∧ (Change.runAll empty variableFirst).contains ⟨3⟩
      ∧ (Change.runAll empty variableFirst).Corresponds signFirst
          (Change.runAll empty literalFirst) signLast MatchedSums
      ∧ ∃ text, text.toList.count '\n' = 4
        ∧ (Change.runAll empty variableFirst).outline signFirst ⟨3⟩ = .ok text
        ∧ (Change.runAll empty literalFirst).outline signLast ⟨4⟩ = .ok text := by
  have grown : (Change.runAll empty variableFirst).Grown := ⟨_, by decide, rfl⟩
  have grown' : (Change.runAll empty literalFirst).Grown := ⟨_, by decide, rfl⟩
  have known : (Change.runAll empty variableFirst).contains ⟨3⟩ = true := by decide
  have corresponds : (Change.runAll empty variableFirst).Corresponds signFirst
      (Change.runAll empty literalFirst) signLast MatchedSums := by
    constructor
    · rintro a b (_ | _ | _ | _) <;> exact ⟨_, _, rfl, rfl, rfl, rfl, rfl, rfl, rfl, rfl⟩
    · rintro a b (_ | _ | _ | _)
      · exact .cons .variable (.cons .literal .nil)
      · exact .cons .name .nil
      · exact .nil
      · exact .nil
  obtain ⟨ids, hids, -, complete, -, same⟩ := outline_of_history grown signFirst known
  have inside := contains_iff.1 known
  obtain rfl : ids = [⟨3⟩, ⟨1⟩, ⟨0⟩, ⟨2⟩] := by
    rw [grown.treelike.descendants_eq inside] at hids
    exact (Except.ok.inj hids).symm.trans (by decide)
  have clear : ((Change.runAll empty variableFirst).walk ⟨3⟩).findSome?
      ((Change.runAll empty variableFirst).stop? ⟨3⟩) = none := by decide
  obtain ⟨text, rows, houtline, hcount, -, -⟩ := complete fun failure stop => by
    rw [grown.treelike.firstStop_iff inside, clear] at stop
    cases stop
  have outcome := same _ signLast ⟨4⟩ MatchedSums grown' corresponds .sum
  refine ⟨grown, grown', known, corresponds, text, hcount, houtline, ?_⟩
  rw [houtline] at outcome
  generalize (Change.runAll empty literalFirst).outline signLast ⟨4⟩ = found at outcome
  cases outcome
  rfl

/-- A binary expression without an operator, and a literal to negate. -/
def sumWithoutOperator : List Change :=
  [ .edit (.insert (.literal (.integer 2)) ⟨0, 1⟩),
    .edit (.insert (.literal (.integer 3)) ⟨0, 1⟩),
    .edit (.insert (.binary ⟨0⟩ Name.empty ⟨1⟩) ⟨0, 1⟩),
    .edit (.insert (.literal (.integer 1)) ⟨0, 1⟩) ]

/-- The literal, negated so often, plus the expression. -/
def negatedSum (count : Nat) : List Change :=
  sumWithoutOperator ++ negations 3 count
    ++ [.edit (.insert (.binary ⟨3 + count⟩ ⟨1⟩ ⟨2⟩) ⟨0, 1⟩)]

/-- The forest before the literal is negated. -/
theorem tower_sumWithoutOperator : Tower (Change.runAll empty sumWithoutOperator)
    (Change.runAll empty sumWithoutOperator) 3 0 where
  size := by decide
  lists := rfl
  chain := ⟨by decide, by decide, fun place h => (nomatch h), fun place h => by
    rw [Nat.le_zero.1 h]
    decide⟩
  free := ⟨_, rfl, rfl, rfl⟩
  other _ := rfl

/-- The changes only make nodes without segments. -/
theorem storedAlong_negatedSum (count : Nat) : Change.StoredAlong empty (negatedSum count) := by
  have stored : ∀ f : Forest, Change.StoredAlong f (negations 3 count) := by
    intro f
    induction count generalizing f with
    | zero => exact True.intro
    | succ count ih => exact (ih f).append ⟨fun s hs => (nomatch hs), True.intro⟩
  have base : Change.StoredAlong empty sumWithoutOperator := by decide
  refine (base.append (stored _)).append ?_
  exact ⟨fun s hs => (nomatch hs), True.intro⟩

/-- Behind a branch that is too deep the missing operator is not named. -/
theorem outline_of_negatedSum :
    (Change.runAll empty (negatedSum 32767)).Grown
      ∧ (∃ ids, (Change.runAll empty (negatedSum 32767)).descendants ⟨32771⟩ = .ok ids
        ∧ ids.find? (Change.runAll empty (negatedSum 32767)).lacksOperator = some ⟨2⟩)
      ∧ (Change.runAll empty (negatedSum 32767)).outline signFirst ⟨32771⟩
        = .error (.fault .tooWide) := by
  have grown : (Change.runAll empty (negatedSum 32767)).Grown :=
    ⟨_, storedAlong_negatedSum 32767, rfl⟩
  have tower : Tower (Change.runAll empty sumWithoutOperator)
      (Change.runAll (Change.runAll empty sumWithoutOperator) (negations 3 32767)) 3 32767 :=
    tower_sumWithoutOperator.runAll (by decide)
  have free : ∃ node, (Change.runAll empty sumWithoutOperator).node? ⟨2⟩ = some node
      ∧ node.parent = none := ⟨_, rfl, rfl⟩
  refine ⟨grown, ?_⟩
  have tree := grown.treelike
  rw [negatedSum, Change.runAll_append, Change.runAll_append, Change.runAll, List.foldl_cons,
    List.foldl_nil, Change.after_insert (tower.admits_pair (by decide) (by decide) free
      (.of_eq (Tower.children_binary (by decide) (by decide))) rfl)] at tree ⊢
  have outcome := tower.outline_binary (by decide) (by decide) free rfl (by decide) (by decide)
    signFirst tree
  rwa [tower.size] at outcome

end Forest

end SyntaxForest
