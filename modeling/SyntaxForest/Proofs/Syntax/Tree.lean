/-
**Syntax trees.**

A node of a syntax tree has a form, which says what it is and holds its texts, values and flags, a
place in the source, and slots with its parts.  The form says how many slots there are and what
each of them takes: one part of a category, one or none, or any number of them.  A tree is well
formed if each slot holds what it takes, and if each match stands inside a function.

Main definitions:

* `Slot`, `Slot.Takes` — a slot, and the sorts of parts that it takes;
* `Form`, `Form.slots`, `Form.tag` — the forms of nodes, their slots and their sorts;
* `Place`, `Tree` — the trees;
* `Tree.size`, `Tree.kept` — the number of nodes, and how many of them stand in sequences;
* `Tree.WellFormed` — the trees of the language.
-/

import SyntaxForest.Forest.Insert
import Mathlib.Data.List.Forall2

set_option relaxedAutoImplicit false
set_option autoImplicit false

namespace SyntaxForest

/-- What a slot of a node takes. -/
inductive Slot
  | one (accepts : Tag → Bool)
  | optional (accepts : Tag → Bool)
  | many (accepts : Tag → Bool)
  | arms

/-- A slot takes parts of some sorts; of arms only the last may always be taken. -/
def Slot.Takes : Slot → List Tag → Prop
  | one accepts, tags => ∃ tag, tags = [tag] ∧ accepts tag = true
  | optional accepts, tags => tags = [] ∨ ∃ tag, tags = [tag] ∧ accepts tag = true
  | many accepts, tags =>
      tags.length ≤ Forest.maxListLength ∧ ∀ tag ∈ tags, accepts tag = true
  | arms, tags =>
      tags.length ≤ Forest.maxListLength ∧ (∀ tag ∈ tags, tag.isArm = true)
        ∧ ∀ tag ∈ tags.dropLast, tag ≠ .defaultArm

instance decidableTakes (slot : Slot) (tags : List Tag) : Decidable (slot.Takes tags) :=
  have single : ∀ accepts : Tag → Bool, tags.head?.any accepts && tags.length == 1 ↔
      ∃ tag, tags = [tag] ∧ accepts tag = true := fun accepts => by
    rcases tags with _ | ⟨tag, _ | ⟨second, rest⟩⟩ <;> simp
  match slot with
  | .one accepts => decidable_of_iff _ (single accepts)
  | .optional accepts => decidable_of_iff (tags = [] ∨ _) (or_congr_right (single accepts))
  | .many _ => inferInstanceAs (Decidable (_ ∧ _))
  | .arms => inferInstanceAs (Decidable (_ ∧ _ ∧ _))

/-! ### Forms -/

/-- What a node is, with its texts, values and flags. -/
inductive Form
  | name (text : String)
  | typeReference (text : String) (pointerDepth : Nat) (isArray : Bool)
  | variableReference
  | parameter
  | function
  | funDirective (exported : Bool)
  | varDirective (exported : Bool)
  | constDirective (exported : Bool)
  | typeDirective (exported : Bool)
  | typeBody
  | literal (value : Literal)
  | call (isOperator : Bool)
  | binary (operator : String)
  | unary (operator : String)
  /-- The negation of a truth value. -/
  | complement
  /-- The negation of a number. -/
  | negation
  | conditionArm
  | literalArm
  | defaultArm
  | matching
  deriving DecidableEq

namespace Form

def nameSlot : Slot := .one (· = .nameIdentifier)

def typeSlot : Slot := .optional (· = .typeReference)

def expressionSlot : Slot := .one Tag.isExpression

/-- **The slots of a form,** in the order in which their parts are made. -/
def slots : Form → List Slot
  | name _ => []
  | typeReference _ _ _ => []
  | variableReference => [nameSlot]
  | parameter => [nameSlot, typeSlot, .optional Tag.isExpression]
  | function => [nameSlot, typeSlot, .many (· = .parameter), .optional Tag.isExpression]
  | funDirective _ => [.one (· = .function)]
  | varDirective _ => [nameSlot, typeSlot, .optional Tag.isExpression]
  | constDirective _ => [nameSlot, typeSlot, expressionSlot]
  | typeDirective _ => [nameSlot, .one (· = .typeBody)]
  | typeBody => []
  | literal _ => []
  | call _ => [expressionSlot, .many Tag.isExpression]
  | binary _ => [expressionSlot, expressionSlot]
  | unary _ => [expressionSlot]
  | complement => [expressionSlot]
  | negation => [expressionSlot]
  | conditionArm => [nameSlot, expressionSlot, expressionSlot]
  | literalArm => [.one Tag.isLiteral, expressionSlot]
  | defaultArm => [expressionSlot]
  | matching => [expressionSlot, .arms]

def tag : Form → Tag
  | name _ => .nameIdentifier
  | typeReference _ _ _ => .typeReference
  | variableReference => .variableReference
  | parameter => .parameter
  | function => .function
  | funDirective _ => .funDirective
  | varDirective _ => .varDirective
  | constDirective _ => .constDirective
  | typeDirective _ => .typeDirective
  | typeBody => .typeBody
  | literal value => value.tag
  | call _ => .call
  | binary _ => .binary
  | unary _ => .unary
  | complement => .complement
  | negation => .negation
  | conditionArm => .conditionArm
  | literalArm => .literalArm
  | defaultArm => .defaultArm
  | matching => .matching

/-- The parts of a node that are kept as a sequence. -/
def sequence {α : Type} (form : Form) (parts : List (List α)) : List α :=
  match form with
  | function => parts.getD 2 []
  | call _ => parts.getD 1 []
  | matching => parts.getD 1 []
  | _ => []

end Form

/-! ### Trees -/

/-- Where a node stands in the source, and whether it is in parentheses there. -/
structure Place where
  span : Span
  parenthesized : Bool
  deriving DecidableEq

/-- A syntax tree. -/
inductive Tree
  | node (form : Form) (place : Place) (slots : List (List Tree))

namespace Tree

def tag : Tree → Tag
  | node form _ _ => form.tag

mutual

def size : Tree → Nat
  | node _ _ slots => sizeSlots slots + 1

def sizeSlots : List (List Tree) → Nat
  | [] => 0
  | slot :: rest => sizeSlot slot + sizeSlots rest

def sizeSlot : List Tree → Nat
  | [] => 0
  | part :: rest => size part + sizeSlot rest

end

mutual

/-- The number of parts that are kept in sequences. -/
def kept : Tree → Nat
  | node form _ slots => keptSlots slots + (form.sequence slots).length

def keptSlots : List (List Tree) → Nat
  | [] => 0
  | slot :: rest => keptSlot slot + keptSlots rest

def keptSlot : List Tree → Nat
  | [] => 0
  | part :: rest => kept part + keptSlot rest

end

/-- **The trees of the language**; `inside` says whether they stand inside a function. -/
inductive WellFormed : (inside : Bool) → Tree → Prop
  /-- Each slot holds what it takes, a match stands inside a function, and the parts are well
  formed, those of a function inside it. -/
  | node {inside : Bool} {form : Form} {place : Place} {slots : List (List Tree)}
      (takes : List.Forall₂ Slot.Takes form.slots (slots.map (·.map tag)))
      (enclosed : form = .matching → inside = true)
      (parts : ∀ slot ∈ slots, ∀ part ∈ slot, WellFormed (inside || form = .function) part) :
      WellFormed inside (node form place slots)

/-! ### Checking a tree -/

mutual

/-- Whether a tree is one of the language. -/
def isWellFormed (inside : Bool) : Tree → Bool
  | node form _ slots =>
      decide (List.Forall₂ Slot.Takes form.slots (slots.map (·.map tag)))
        && decide (form = .matching → inside = true)
        && areWellFormed (inside || form = .function) slots

def areWellFormed (inside : Bool) : List (List Tree) → Bool
  | [] => true
  | slot :: rest => isSlotWellFormed inside slot && areWellFormed inside rest

def isSlotWellFormed (inside : Bool) : List Tree → Bool
  | [] => true
  | part :: rest => isWellFormed inside part && isSlotWellFormed inside rest

end

mutual

/-- **The check finds the trees of the language.** -/
theorem isWellFormed_iff {inside : Bool} :
    (t : Tree) → (t.isWellFormed inside = true ↔ WellFormed inside t)
  | node form place slots => by
      rw [isWellFormed, Bool.and_eq_true, Bool.and_eq_true, decide_eq_true_iff, decide_eq_true_iff,
        areWellFormed_iff slots]
      constructor
      · rintro ⟨⟨takes, enclosed⟩, parts⟩
        exact .node takes enclosed parts
      · rintro ⟨takes, enclosed, parts⟩
        exact ⟨⟨takes, enclosed⟩, parts⟩

theorem areWellFormed_iff {inside : Bool} : (slots : List (List Tree)) →
    (areWellFormed inside slots = true ↔ ∀ slot ∈ slots, ∀ part ∈ slot, WellFormed inside part)
  | [] => by simp [areWellFormed]
  | slot :: rest => by
      rw [areWellFormed, Bool.and_eq_true, isSlotWellFormed_iff slot, areWellFormed_iff rest,
        List.forall_mem_cons]

theorem isSlotWellFormed_iff {inside : Bool} : (slot : List Tree) →
    (isSlotWellFormed inside slot = true ↔ ∀ part ∈ slot, WellFormed inside part)
  | [] => by simp [isSlotWellFormed]
  | part :: rest => by
      rw [isSlotWellFormed, Bool.and_eq_true, isWellFormed_iff part, isSlotWellFormed_iff rest,
        List.forall_mem_cons]

end

instance (inside : Bool) (t : Tree) : Decidable (WellFormed inside t) :=
  decidable_of_iff _ (isWellFormed_iff t)

end Tree

end SyntaxForest
