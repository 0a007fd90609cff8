/-
**What functions are stays.**

The only contents that ever change are those of documents, which may come to own other directives,
and of literals, which may take other values.  The parts of a function and the name that a
declaration declares are found by going from node to node, but never through a document or a
literal.  So an answer that was found once is found again later.

Main definitions:

* `Shape.isLasting` — contents that never change;
* `Forest.Abides` — a forest with more nodes, in which those contents are what they were.

Main results:

* `Forest.Abides.functionPartsF` — the parts of a function are found again, with more fuel too;
* `Forest.Abides.functionParts`, `Forest.Abides.declaredName` — **so are the parts of functions and
  the names of declarations.**
-/

import SyntaxForest.Proofs.Forest.Fitting

set_option relaxedAutoImplicit false
set_option autoImplicit false

namespace SyntaxForest

/-- Contents that never change: all but those of documents and of literals. -/
def Shape.isLasting : Shape → Bool
  | .document _ | .literal _ => false
  | _ => true

/-- The sort of a node tells whether its contents may change. -/
theorem Shape.isLasting_congr {a b : Shape} (h : a.tag = b.tag) : a.isLasting = b.isLasting := by
  have hsort : ∀ shape : Shape,
      shape.isLasting = !(decide (shape.tag = .document) || shape.tag.isLiteral) := by
    intro shape
    cases shape with
    | literal value => cases value <;> rfl
    | _ => rfl
  rw [hsort, hsort, h]

namespace Forest

/-- There are no fewer nodes, and contents that never change have not changed. -/
structure Abides (f g : Forest) : Prop where
  size : f.size ≤ g.size
  shape? : ∀ {id shape}, f.shape? id = some shape → shape.isLasting = true →
    g.shape? id = some shape

namespace Abides

variable {f g : Forest} {id : NodeId} {node : Node} {name : Name}

theorem node? (abides : f.Abides g) (hnode : f.node? id = some node)
    (lasting : node.shape.isLasting = true) :
    ∃ later, g.node? id = some later ∧ later.shape = node.shape :=
  shape?_eq_some_iff.1 (abides.shape? (shape?_of_node? hnode) lasting)

/-- **The parts of a function are found again, with more fuel too.** -/
theorem functionPartsF (abides : f.Abides g) {fuel fuel' : Nat} {parts : FunctionParts}
    (le : fuel ≤ fuel') (found : f.functionPartsF fuel id = .ok parts) :
    g.functionPartsF fuel' id = .ok parts := by
  induction fuel generalizing id fuel' parts with
  | zero => cases found
  | succ fuel ih =>
      -- induction on the fuel in the former forest; there may be more in the later one
      obtain ⟨fuel', rfl⟩ : ∃ rest, fuel' = rest + 1 := ⟨fuel' - 1, by omega⟩
      rw [Forest.functionPartsF] at found
      cases hnode : f.node? id with
      | none =>
          rw [hnode] at found
          cases found
      | some node =>
          rw [hnode] at found
          cases hshape : node.shape with
          | function name returnType parameters body =>
              obtain ⟨later, hlater, hsame⟩ := abides.node? hnode (by rw [hshape]; rfl)
              simp only [hshape] at found
              simp only [Forest.functionPartsF, hlater, hsame, hshape, found]
          | specialized base closure =>
              obtain ⟨later, hlater, hsame⟩ := abides.node? hnode (by rw [hshape]; rfl)
              simp only [hshape] at found
              cases hbase : f.functionPartsF fuel base with
              | error refusal =>
                  rw [hbase] at found
                  cases found
              | ok behind =>
                  rw [hbase] at found
                  simp only [Forest.functionPartsF, hlater, hsame, hshape,
                    ih (Nat.le_of_succ_le_succ le) hbase, found]
          | _ =>
              simp only [hshape] at found
              cases found

/-- **The parts of a function are found again.** -/
theorem functionParts (abides : f.Abides g) {parts : FunctionParts}
    (found : f.functionParts id = .ok parts) : g.functionParts id = .ok parts :=
  abides.functionPartsF (Nat.succ_le_succ abides.size) found

theorem declaredFunction (abides : f.Abides g) {function : NodeId}
    (found : f.declaredFunction id = .ok function) : g.declaredFunction id = .ok function := by
  obtain ⟨node, hnode, hfound⟩ := Question.bind_eq_ok_iff.1 found
  cases hshape : node.shape with
  | funDirective declared exported =>
      obtain ⟨later, hlater, hsame⟩ :=
        abides.node? (require_eq_ok_iff.1 hnode) (by rw [hshape]; rfl)
      refine Question.bind_eq_ok_iff.2 ⟨later, require_eq_ok_iff.2 hlater, ?_⟩
      rw [hsame]
      exact hfound
  | _ =>
      rw [hshape] at hfound
      cases hfound

theorem identifierName (abides : f.Abides g) (found : f.identifierName id = .ok name) :
    g.identifierName id = .ok name := by
  obtain ⟨node, hnode, hfound⟩ := Question.bind_eq_ok_iff.1 found
  cases hshape : node.shape with
  | nameIdentifier held =>
      obtain ⟨later, hlater, hsame⟩ :=
        abides.node? (require_eq_ok_iff.1 hnode) (by rw [hshape]; rfl)
      refine Question.bind_eq_ok_iff.2 ⟨later, require_eq_ok_iff.2 hlater, ?_⟩
      rw [hsame]
      exact hfound
  | _ =>
      rw [hshape] at hfound
      cases hfound

/-- **A declaration of a function goes on declaring its name.** -/
theorem declaredName (abides : f.Abides g) (found : f.declaredName id = .ok name) :
    g.declaredName id = .ok name := by
  obtain ⟨function, hfunction, hrest⟩ := Question.bind_eq_ok_iff.1 found
  obtain ⟨parts, hparts, hname⟩ := Question.bind_eq_ok_iff.1 hrest
  exact Question.bind_eq_ok_iff.2 ⟨function, abides.declaredFunction hfunction,
    Question.bind_eq_ok_iff.2 ⟨parts, abides.functionParts hparts, abides.identifierName hname⟩⟩

end Abides

end Forest

end SyntaxForest
