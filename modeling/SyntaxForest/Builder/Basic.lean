/-
**Builders.**

A builder makes the forest of one source file from the leaves up.  It checks that each slot of a
node holds a node of the category that is wanted there.

A match is made before the function that will own it, but it needs a local variable of that
function.  So a builder keeps the functions that are open: opening one starts a count of the
locals wanted inside it, and making the function closes it and gives it that many.

Main definitions:

* `Builder`, `Builder.start` — what has been made, and the builder of a source;
* `Builder.Action` — a step of a builder that may be refused;
* `Builder.onForest`, `Builder.intern` — steps on the forest and on the names;
* `Builder.expect`, `Builder.expectOptional` — the check of a slot.

Main results:

* `Builder.expect_state` — a check changes nothing.
-/

import SyntaxForest.Forest.Decorate

set_option relaxedAutoImplicit false
set_option autoImplicit false

namespace SyntaxForest

structure Builder where
  forest : Forest
  names : NameTable
  /-- The number of locals wanted in each open function, the innermost first. -/
  frames : List Nat
  parseErrors : List ParseError
  file : Option String
  source : String
  deriving Inhabited

namespace Builder

/-- The builder of a source, before anything is made. -/
def start (names : NameTable) (source : String) (file : Option String) : Builder where
  forest := Forest.empty
  names := names
  frames := []
  parseErrors := []
  file := file
  source := source

/-- A step of a builder that may be refused; the builder after a refusal is part of the answer. -/
abbrev Action (α : Type) := EStateM Refusal Builder α

def onForest {α : Type} (action : Forest.Action α) : Action α := fun b =>
  match b with
  | ⟨forest, names, frames, parseErrors, file, source⟩ =>
      match action forest with
      | .ok answer forest => .ok answer ⟨forest, names, frames, parseErrors, file, source⟩
      | .error refusal forest => .error refusal ⟨forest, names, frames, parseErrors, file, source⟩

def intern (text : String) : Action Name := fun b =>
  match b with
  | ⟨forest, names, frames, parseErrors, file, source⟩ =>
      match names.intern text with
      | (name, names) => .ok name ⟨forest, names, frames, parseErrors, file, source⟩

def insert (shape : Shape) (span : Span) : Action NodeId := onForest (Forest.insert shape span)

def storeList (ids : List NodeId) (what : String) : Action Segment :=
  onForest (Forest.storeList ids what)

/-! ### Slots -/

/-- A slot holds a node of a category; `expected` names the category in a refusal. -/
def expect (expected : String) (accepts : Tag → Bool) (id : NodeId) : Action NodeId := fun b =>
  match b.forest.node? id with
  | none => .error (.unknownNode id) b
  | some node =>
      if accepts node.shape.tag then .ok id b
      else .error (.unexpectedTag id expected node.shape.tag) b

def expectOptional (expected : String) (accepts : Tag → Bool) : Option NodeId → Action NodeId
  | some id => expect expected accepts id
  | none => pure NodeId.absent

def expectAll (expected : String) (accepts : Tag → Bool) : List NodeId → Action Unit
  | [] => pure ()
  | id :: rest => do
      let _ ← expect expected accepts id
      expectAll expected accepts rest

def expectName : NodeId → Action NodeId :=
  expect "NameIdentifierNode" (· = .nameIdentifier)

def expectExpression : NodeId → Action NodeId :=
  expect "expression" Tag.isExpression

def expectExpression? : Option NodeId → Action NodeId :=
  expectOptional "expression" Tag.isExpression

def expectType? : Option NodeId → Action NodeId :=
  expectOptional "TypeReferenceNode" (· = .typeReference)

theorem expect_state {expected : String} {accepts : Tag → Bool} {id answer : NodeId}
    {b c : Builder} (h : expect expected accepts id b = .ok answer c) : answer = id ∧ c = b := by
  unfold expect at h
  split at h
  · cases h
  · split at h
    · exact ⟨(EStateM.Result.ok.inj h).1.symm, (EStateM.Result.ok.inj h).2.symm⟩
    · cases h

end Builder

end SyntaxForest
