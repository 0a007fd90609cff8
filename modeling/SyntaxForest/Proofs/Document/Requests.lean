/-
**What is done to a document.**

A document that was handed over goes through passes that change its forest in any way, write its
lexical context, group its declarations and ask its table of names for more numbers; the table is
shared, so it is asked while a document is still being built as well.  Whatever of this is done,
the forest moves and the table goes on.  So a name that was made for a text is read as that text
from then on.

Main definitions:

* `Document.Request`, `Document.after`, `Document.runAll` — what may be done to a document;
* `Builder.Follows` — a builder that comes after another, its table of names shared with others.

Main results:

* `Document.moves_runAll`, `Document.extends_runAll` — what any requests do to the forest and to
  the names;
* `Builder.named_name`, `Builder.named_typeReference` — what is made of a text;
* `Document.names_of_requests` — **numbers and texts are in bijection, and a name is read as the
  text that it was made of.**
-/

import SyntaxForest.Proofs.Builder.Reach
import SyntaxForest.Proofs.Forest.Evolution
import SyntaxForest.Proofs.Syntax.Interning

set_option relaxedAutoImplicit false
set_option autoImplicit false

namespace SyntaxForest

namespace Document

/-! ### Requests -/

inductive Request
  | change (change : Forest.Change)
  | setContext (context : ContextId)
  | groupOverloads
  /-- Another node is taken for its root. -/
  | setRoot (root : NodeId)
  /-- Somebody asks its table of names. -/
  | ask (request : NameTable.Request)

def after (d : Document) : Request → Document
  | .change change => { d with forest := change.after d.forest }
  | .setContext context => stateOf (setContext context d)
  | .groupOverloads => stateOf (groupOverloads d)
  | .setRoot root => { d with root := root }
  | .ask request => { d with names := d.names.after request }

def runAll (d : Document) (requests : List Request) : Document := requests.foldl after d

/-- Writing the context changes nothing else. -/
theorem stateOf_setContext (context : ContextId) (d : Document) :
    ∃ written, stateOf (setContext context d) = { d with context := written } := by
  unfold setContext
  split
  · exact ⟨d.context, rfl⟩
  · next written _ => exact ⟨written, rfl⟩

/-- Grouping the declarations moves the forest and changes nothing else. -/
theorem stateOf_groupOverloads (d : Document) : ∃ forest, d.forest.Moves forest
    ∧ stateOf (groupOverloads d) = { d with forest := forest } := by
  have hmoves := (Forest.Moves.regroups d.root).regroupDocument d.forest
  unfold groupOverloads
  split
  · next groups forest hr =>
      rw [hr] at hmoves
      exact ⟨forest, hmoves, rfl⟩
  · next refusal forest hr =>
      rw [hr] at hmoves
      exact ⟨forest, hmoves, rfl⟩
  · exact ⟨d.forest, Forest.Moves.refl d.forest, rfl⟩

theorem moves_after (d : Document) (request : Request) :
    d.forest.Moves (d.after request).forest := by
  cases request with
  | change change => exact Forest.moves_after d.forest change
  | setContext context =>
      obtain ⟨written, h⟩ := stateOf_setContext context d
      rw [after, h]
      exact Forest.Moves.refl d.forest
  | groupOverloads =>
      obtain ⟨forest, hmoves, h⟩ := stateOf_groupOverloads d
      rw [after, h]
      exact hmoves
  | setRoot root => exact Forest.Moves.refl d.forest
  | ask request => exact Forest.Moves.refl d.forest

theorem extends_after (d : Document) (request : Request) :
    d.names.Extends (d.after request).names := by
  cases request with
  | change change => exact NameTable.Extends.refl d.names
  | setContext context =>
      obtain ⟨written, h⟩ := stateOf_setContext context d
      rw [after, h]
      exact NameTable.Extends.refl d.names
  | groupOverloads =>
      obtain ⟨forest, -, h⟩ := stateOf_groupOverloads d
      rw [after, h]
      exact NameTable.Extends.refl d.names
  | setRoot root => exact NameTable.Extends.refl d.names
  | ask request => exact NameTable.extends_after d.names request

/-- **Whatever is done to a document, its forest moves.** -/
theorem moves_runAll (d : Document) (requests : List Request) :
    d.forest.Moves (d.runAll requests).forest := by
  induction requests generalizing d with
  | nil => exact Forest.Moves.refl d.forest
  | cons request rest ih => exact (moves_after d request).trans (ih _)

theorem extends_runAll (d : Document) (requests : List Request) :
    d.names.Extends (d.runAll requests).names := by
  induction requests generalizing d with
  | nil => exact NameTable.Extends.refl d.names
  | cons request rest ih => exact (extends_after d request).trans (ih _)

end Document

/-! ### Names of texts -/

/-- The name that stands for the text of an identifier or of a written type. -/
def Shape.named? : Shape → Option Name
  | .nameIdentifier name => some name
  | .typeReference name _ _ => some name
  | _ => none

theorem Shape.isLasting_of_named? {shape : Shape} {name : Name} (h : shape.named? = some name) :
    shape.isLasting = true := by
  cases shape with
  | nameIdentifier _ => rfl
  | typeReference _ _ _ => rfl
  | _ => cases h

namespace Forest

/-- An identifier or a written type of a text. -/
def Named (f : Forest) (names : NameTable) (id : NodeId) (text : String) : Prop :=
  ∃ node name, f.node? id = some node ∧ node.shape.named? = some name
    ∧ names.Issued name ∧ names.text name = text

/-- It stays one. -/
theorem Named.evolves {f g : Forest} {names later : NameTable} {id : NodeId} {text : String}
    (named : f.Named names id text) (evolves : f.Evolves g) (ext : names.Extends later) :
    g.Named later id text := by
  obtain ⟨node, name, hnode, hshape, issued, htext⟩ := named
  obtain ⟨after, hafter, becomes⟩ := evolves.node hnode
  have hsame := becomes.shape (Shape.isLasting_of_named? hshape)
  rw [← hsame] at hshape
  exact ⟨after, name, hafter, hshape, ext.issued issued, (ext.text_eq issued).trans htext⟩

end Forest

/-- It is read as its text. -/
theorem Document.nameOf?_of_named {d : Document} {id : NodeId} {text : String}
    (named : d.forest.Named d.names id text) : d.nameOf? id = some text := by
  obtain ⟨⟨shape, _, _, _, _, _, _, _, _, _⟩, name, hnode, hshape, -, rfl⟩ := named
  unfold nameOf?
  rw [hnode]
  cases shape with
  | nameIdentifier _ =>
      cases hshape
      rfl
  | typeReference _ _ _ =>
      cases hshape
      rfl
  | _ => cases hshape

namespace Builder

open Forest

variable {b c d : Builder} {text : String} {span : Span} {id : NodeId}

/-- A node that is made for the text of a name. -/
theorem named_of_insert {shape : Name → Shape} (named : ∀ name, (shape name).named? = some name)
    (h : (intern text >>= fun name => insert (shape name) span) b = .ok id c) :
    c.forest.Named c.names id text := by
  obtain ⟨name, d, hintern, hinsert⟩ := Step.bind_eq_ok_iff.1 h
  cases hintern
  obtain ⟨g, hg, rfl⟩ := onForest_eq_ok_iff.1 hinsert
  obtain ⟨admits, rfl, rfl⟩ := insert_eq_ok_iff.1 hg
  exact ⟨_, _, node?_add_self admits.notMem_children, named _,
    NameTable.issued_intern b.names text, NameTable.text_intern b.names text⟩

theorem named_name (h : name text span b = .ok id c) : c.forest.Named c.names id text :=
  named_of_insert (fun _ => rfl) h

/-- A written type is one of its text. -/
theorem named_typeReference {pointerDepth : Nat} {isArray : Bool}
    (h : typeReference text pointerDepth isArray span b = .ok id c) :
    c.forest.Named c.names id text := by
  have named : ∀ name, (Shape.typeReference name pointerDepth isArray).named? = some name :=
    fun _ => rfl
  exact named_of_insert named h

/-- A builder that comes after another; others may ask its table of names in between. -/
inductive Follows (b : Builder) : Builder → Prop
  | refl : Follows b b
  | step {c : Builder} (follows : Follows b c) (step : Step) : Follows b (after c step)
  /-- Somebody else asks the table of names. -/
  | ask {c : Builder} (follows : Follows b c) (request : NameTable.Request) :
      Follows b { c with names := c.names.after request }

theorem Follows.reaches (follows : b.Follows c) : b.Reaches c := by
  induction follows with
  | refl => exact Reaches.refl b
  | step _ step ih => exact ih.trans (reaches_after _ step)
  | @ask c _ request ih =>
      refine ih.trans ⟨NameTable.extends_after c.names request, fun distinct => ?_, Acts.refl⟩
      exact NameTable.Distinct.after distinct request

theorem Reaches.moves (reaches : b.Reaches c) : b.forest.Moves c.forest :=
  Moves.acts (reaches.acts.mono fun _ _ _ => True.intro)

theorem Reaches.evolves (reaches : b.Reaches c) : b.forest.Evolves c.forest :=
  Evolves.moves reaches.moves

/-- **A name is read as the text that it was made of** in every document that comes of it. -/
theorem nameOf?_of_named (named : c.forest.Named c.names id text) (follows : c.Follows d)
    {directives : List NodeId} {document : Document} (h : finish d directives = .ok document)
    (later : List Document.Request) : (document.runAll later).nameOf? id = some text := by
  obtain ⟨last, hlast, hforest, hnames⟩ := reaches_finish h
  have reaches := follows.reaches.trans hlast
  have handed : document.forest.Named document.names id text := by
    rw [hforest, hnames]
    exact named.evolves reaches.evolves reaches.names
  exact Document.nameOf?_of_named
    (handed.evolves (Evolves.moves (document.moves_runAll later)) (document.extends_runAll later))

end Builder

/-! ### The whole -/

open NameTable in
/-- **Numbers and texts are in bijection,** after any requests to a fresh table that leave room in
it: the table holds the distinct texts that came, in their order, and numbers them.  A map that is
kept beside the texts, from the common ones on, stays inverse to them and answers each request as
the table does, and a text that is numbered in two steps with other requests in between is numbered
as if both were done when the second is.  So an identifier or a written type that was made of a text
is read as that text, whatever is done to the builder and to the document that comes of it. -/
theorem Document.names_of_requests (requests : List NameTable.Request)
    (room : (fresh.runAll requests).size < capacity) :
    (fresh.runAll requests).Numbers
      ∧ (fresh.runAll requests).texts.toList
        = (common ++ requests.filterMap NameTable.Request.given?).eraseDups
      ∧ (fresh.runAll requests).size
        = (common ++ requests.filterMap NameTable.Request.given?).eraseDups.length
      ∧ (∀ text, (fresh.runAll requests).intern? text = .ok ((fresh.runAll requests).intern text))
      ∧ (Interner.fresh.runAll requests).Mirrors (fresh.runAll requests)
      ∧ (∀ request, (Interner.fresh.runAll requests).answer request
        = (fresh.runAll requests).answer request)
      ∧ (∀ between text, (fresh.runAll (requests ++ between)).size < capacity →
        (Interner.fresh.runAll requests).tryInternAcross
            (Interner.fresh.runAll (requests ++ between)) text
          = (Interner.fresh.runAll (requests ++ between)).tryIntern text)
      ∧ ∀ (b c d : Builder) (text : String) (span : Span) (id : NodeId),
        (Builder.name text span b = .ok id c ∨ ∃ pointerDepth isArray,
          Builder.typeReference text pointerDepth isArray span b = .ok id c) →
        c.Follows d → ∀ directives document, Builder.finish d directives = .ok document →
          ∀ later, (document.runAll later).nameOf? id = some text := by
  have htexts := texts_runAll requests texts_fresh room
  have mirrors := Interner.mirrors_fresh.runAll requests room
  refine ⟨(Reached.fresh.runAll requests).numbers, htexts, congrArg List.length htexts,
    intern?_of_lt room, mirrors, mirrors.answer room, fun between text hroom => ?_,
    fun b c d text span id made follows directives document handed later => ?_⟩
  · refine mirrors.tryIntern_across (Interner.mirrors_fresh.runAll _ hroom) ?_ text
    rw [NameTable.runAll, NameTable.runAll, List.foldl_append]
    exact NameTable.extends_runAll _ between
  · have named : c.forest.Named c.names id text := by
      rcases made with h | ⟨pointerDepth, isArray, h⟩
      · exact Builder.named_name h
      · exact Builder.named_typeReference h
    exact Builder.nameOf?_of_named named follows handed later

open NameTable in
/-- Two texts are new among five requests; one of them is only looked up at first. -/
theorem Document.names_of_twoTexts :
    (fresh.runAll [.intern "x", .find? "y", .intern? "fun", .intern? "y", .intern "x"]).size
        < capacity
      ∧ (fresh.runAll
          [.intern "x", .find? "y", .intern? "fun", .intern? "y", .intern "x"]).texts.toList
        = common ++ ["x", "y"] := by
  have room :
      (fresh.runAll [.intern "x", .find? "y", .intern? "fun", .intern? "y", .intern "x"]).size
        < capacity := Nat.lt_of_le_of_lt (size_runAll_le _ _) (by decide)
  refine ⟨room, (Document.names_of_requests _ room).2.1.trans ?_⟩
  decide

end SyntaxForest
