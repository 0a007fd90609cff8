/-
**Taking a sequence of steps apart.**

A question answers or is refused, and a step also leaves a state behind.  When two of them in a row
succeed, both do, and when they fail, one of them does.

Main definitions:

* `stateOf` — the state that a step leaves behind, refused or not;
* `answerOf?` — the answer of a step that succeeds.

Main results:

* `Question.bind_eq_ok_iff` — two questions in a row are answered exactly when both are;
* `Step.bind_eq_ok_iff`, `Step.bind_eq_error_iff` — when two steps in a row succeed and fail;
* `Step.stateOf_bind` — what two steps in a row leave behind;
* `Step.stateOf_map` — what is made of the answer does not matter to the state.
-/

set_option relaxedAutoImplicit false
set_option autoImplicit false

namespace SyntaxForest

namespace Question

variable {ε ε' α β : Type}

theorem bind_eq_ok_iff {question : Except ε α} {next : α → Except ε β} {answer : β} :
    question >>= next = .ok answer ↔ ∃ a, question = .ok a ∧ next a = .ok answer := by
  cases question with
  | error e => exact ⟨fun h => (nomatch h), fun ⟨_, h, _⟩ => (nomatch h)⟩
  | ok a =>
      constructor
      · intro h
        exact ⟨a, rfl, h⟩
      · rintro ⟨b, hb, h⟩
        cases hb
        exact h

theorem map_eq_ok_iff {question : Except ε α} {make : α → β} {answer : β} :
    question.map make = .ok answer ↔ ∃ a, question = .ok a ∧ make a = answer := by
  cases question with
  | error e => exact ⟨fun h => (nomatch h), fun ⟨_, h, _⟩ => (nomatch h)⟩
  | ok a =>
      constructor
      · intro h
        exact ⟨a, rfl, Except.ok.inj h⟩
      · rintro ⟨b, hb, h⟩
        cases hb
        exact congrArg Except.ok h

theorem error_of_bind_pure {question : Except ε α} {make : α → β} {e : ε}
    (h : (question >>= fun a => pure (make a)) = .error e) : question = .error e := by
  cases question with
  | error other => exact congrArg Except.error (Except.error.inj h)
  | ok a => cases h

theorem eq_ok_of_isOk [Inhabited α] {question : Except ε α} (h : question.isOk = true) :
    question = .ok (question.toOption.getD default) := by
  cases question with
  | error e => cases h
  | ok a => rfl

theorem mapError_bind (stop : ε → ε') (question : Except ε α) (next : α → Except ε β) :
    (question >>= next).mapError stop
      = question.mapError stop >>= fun answer => (next answer).mapError stop := by
  cases question <;> rfl


end Question

/-- The state that a step leaves behind. -/
def stateOf {ε σ α : Type} : EStateM.Result ε σ α → σ
  | .ok _ state => state
  | .error _ state => state

/-- The answer of a step, if it is not refused. -/
def answerOf? {ε σ α : Type} : EStateM.Result ε σ α → Option α
  | .ok answer _ => some answer
  | .error _ _ => none

theorem answerOf?_eq_some_iff {ε σ α : Type} {result : EStateM.Result ε σ α} {answer : α} :
    answerOf? result = some answer ↔ ∃ state, result = .ok answer state := by
  cases result with
  | ok found state =>
      constructor
      · intro h
        cases h
        exact ⟨state, rfl⟩
      · rintro ⟨_, h⟩
        cases h
        rfl
  | error refusal state =>
      constructor
      · intro h
        cases h
      · rintro ⟨_, h⟩
        cases h

namespace Step

variable {ε σ α β : Type} {step : EStateM ε σ α} {next : α → EStateM ε σ β} {s t : σ}

theorem bind_eq_ok_iff {answer : β} :
    (step >>= next) s = .ok answer t ↔ ∃ a u, step s = .ok a u ∧ next a u = .ok answer t := by
  change EStateM.bind step next s = _ ↔ _
  unfold EStateM.bind
  cases step s with
  | error e u => exact ⟨fun h => (nomatch h), fun ⟨_, _, h, _⟩ => (nomatch h)⟩
  | ok a u =>
      constructor
      · intro h
        exact ⟨a, u, rfl, h⟩
      · rintro ⟨b, v, hb, h⟩
        cases hb
        exact h

theorem bind_eq_error_iff {refusal : ε} :
    (step >>= next) s = .error refusal t ↔
      step s = .error refusal t ∨ ∃ a u, step s = .ok a u ∧ next a u = .error refusal t := by
  change EStateM.bind step next s = _ ↔ _
  unfold EStateM.bind
  cases step s with
  | error e u =>
      constructor
      · intro h
        cases h
        exact Or.inl rfl
      · rintro (h | ⟨_, _, h, _⟩)
        · cases h
          rfl
        · cases h
  | ok a u =>
      constructor
      · intro h
        exact Or.inr ⟨a, u, rfl, h⟩
      · rintro (h | ⟨b, v, hb, h⟩)
        · cases h
        · cases hb
          exact h

theorem bind_of_ok {a : α} (h : step s = .ok a t) : (step >>= next) s = next a t := by
  change EStateM.bind step next s = _
  unfold EStateM.bind
  rw [h]

theorem map_eq_ok_iff {make : α → β} {answer : β} :
    (make <$> step) s = .ok answer t ↔ ∃ a, step s = .ok a t ∧ make a = answer := by
  change EStateM.map make step s = _ ↔ _
  unfold EStateM.map
  cases step s with
  | error e u => exact ⟨fun h => (nomatch h), fun ⟨_, h, _⟩ => (nomatch h)⟩
  | ok a u =>
      constructor
      · intro h
        cases h
        exact ⟨a, rfl, rfl⟩
      · rintro ⟨b, hb, rfl⟩
        cases hb
        rfl

/-- What is made of the answer does not matter to a refusal. -/
theorem map_eq_error_iff {make : α → β} {e : ε} :
    (make <$> step) s = .error e t ↔ step s = .error e t := by
  change EStateM.map make step s = _ ↔ _
  unfold EStateM.map
  cases step s with
  | error found u =>
      constructor
      · intro h
        cases h
        rfl
      · intro h
        cases h
        rfl
  | ok a u => exact ⟨fun h => (nomatch h), fun h => (nomatch h)⟩

/-- What holds of the states that a step and the next one leave holds of what they leave
together. -/
theorem stateOf_bind {P : σ → Prop} (refused : ∀ {e u}, step s = .error e u → P u)
    (done : ∀ {a u}, step s = .ok a u → P (stateOf (next a u))) :
    P (stateOf ((step >>= next) s)) := by
  change P (stateOf (EStateM.bind step next s))
  unfold EStateM.bind
  cases hr : step s with
  | error e u => exact refused hr
  | ok a u => exact done hr

theorem eq_of_check {a : α} (same : stateOf (step s) = s) (h : step s = .ok a t) : t = s := by
  rw [h] at same
  exact same

@[simp] theorem stateOf_map (make : α → β) (step : EStateM ε σ α) (s : σ) :
    stateOf ((make <$> step) s) = stateOf (step s) := by
  change stateOf (EStateM.map make step s) = _
  unfold EStateM.map
  cases step s <;> rfl

end Step

end SyntaxForest
