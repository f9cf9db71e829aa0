import Deferral.Proofs.Layers

/-!
# Contained panics

`containPanic` turns a panic of the action that it is given into a failure, and leaves
all else as it is. What comes after it is not its concern.

* `Action.evaluate_containPanic_ne_panic`: an action with `containPanic` around it does
  not panic.
* `Action.evaluate_containPanic_containPanic`: to contain panics twice is to do so once.
* `Tower.evaluate_apply_eq_panic_iff`: around an action that does not panic, layers panic
  exactly if what they do themselves panics.
* `evaluate_containPanic_cases`: all of it, with the text of the failure and the note.
-/

namespace Deferral

variable {σ ε ε' α β : Type} {n : ℕ} {s s' : σ} {p : Payload}

namespace Action

variable [Tracing σ] [OfFault ε] {a : Action σ ε α}

/-- Containing panics does not make an action end. -/
theorem evaluate_containPanic_exhausted (h : a.evaluate n s = .exhausted) :
    a.containPanic.evaluate n s = .exhausted := by
  rw [containPanic, evaluate_ofFallible, Work.bind_run, Work.caught, h]

/-- Under `containPanic` there is no panic left. -/
theorem evaluate_containPanic_ne_panic (a : Action σ ε α) (n : ℕ) (s : σ) (p : Payload) (s' : σ) :
    a.containPanic.evaluate n s ≠ .panic p s' := by
  -- by the ending of the action inside, from which that of the whole is known
  cases h : a.evaluate n s with
  | value r s₁ => simp [evaluate_containPanic_pure h]
  | panic q s₁ => simp [evaluate_containPanic_panic h]
  | exhausted => simp [evaluate_containPanic_exhausted h]

/-- An action that never panics is left as it is. -/
theorem evaluate_containPanic_eq (h : ∀ n s p s', a.evaluate n s ≠ .panic p s') :
    a.containPanic.evaluate = a.evaluate := by
  funext n s
  cases ha : a.evaluate n s with
  | value r s₁ => exact evaluate_containPanic_pure ha
  | panic p s₁ => exact absurd ha (h n s p s₁)
  | exhausted => exact evaluate_containPanic_exhausted ha

/-- To contain panics twice is to do so once. -/
theorem evaluate_containPanic_containPanic (a : Action σ ε α) :
    a.containPanic.containPanic.evaluate = a.containPanic.evaluate :=
  evaluate_containPanic_eq a.evaluate_containPanic_ne_panic

end Action

/-- A sequence whose first part does not panic panics where its second part does. -/
theorem Work.bind_eq_panic_iff {w : Work σ α} {f : α → Work σ β}
    (hw : ∀ p s', w n s ≠ .panic p s') :
    (w >>= f) n s = .panic p s' ↔ ∃ a s₁, w n s = .value a s₁ ∧ f a n s₁ = .panic p s' := by
  rw [bind_run]
  cases h : w n s with
  | value a s₁ =>
    constructor
    · intro hf
      exact ⟨a, s₁, rfl, hf⟩
    · rintro ⟨_, _, ⟨⟩, hf⟩
      exact hf
  | panic q s₁ => exact absurd h (hw q s₁)
  | exhausted => simp

variable [Tracing σ]

/-- Around an action that does not panic, there is a panic exactly where a layer panics. -/
theorem Tower.evaluate_apply_eq_panic_iff (t : Tower σ ε α ε' β) {a : Action σ ε α}
    (ha : ∀ p s', a.evaluate n s ≠ .panic p s') :
    (t.apply a).evaluate n s = .panic p s' ↔
      ∃ r s₁, a.evaluate n s = .value r s₁ ∧ t.after r n s₁ = .panic p s' := by
  rw [t.evaluate_apply, Work.bind_eq_panic_iff ha]

/-- **Containing panics.** An action that gives a value or fails does the same with
`containPanic` around it, in every state. One that panics fails, with the text of the
panic if it has one; what was done before the panic stays done, and after it comes one
note. So there is no panic left to contain. Layers put around it still panic exactly
where they do so themselves, with the outcome and in the state that it has left. -/
theorem evaluate_containPanic_cases [OfFault ε] (a : Action σ ε α) (n : ℕ) (s : σ) :
    (∀ r s', a.evaluate n s = .value r s' → a.containPanic.evaluate n s = .value r s') ∧
    (∀ p t s', a.evaluate n s = .panic p s' →
      (p = .text t ∨ p = .mute ∧ t = "Unknown panic") →
      a.containPanic.evaluate n s = .value (.error (ofFault (.panicked t)))
        (Tracing.note (.event .warn [("message", .text "effect panicked"), ("message", .text t)]) s')) ∧
    (a.containPanic.evaluate n s = .exhausted ↔ a.evaluate n s = .exhausted) ∧
    (∀ p s', a.containPanic.evaluate n s ≠ .panic p s') ∧
    a.containPanic.containPanic.evaluate = a.containPanic.evaluate ∧
    ∀ (ε' β : Type) (t : Tower σ ε α ε' β) (p : Payload) (s' : σ),
      (t.apply a.containPanic).evaluate n s = .panic p s' ↔
        ∃ r s₁, a.containPanic.evaluate n s = .value r s₁ ∧ t.after r n s₁ = .panic p s' := by
  have hne := a.evaluate_containPanic_ne_panic n s
  refine ⟨fun r s' h => Action.evaluate_containPanic_pure h, ?_, ⟨?_, ?_⟩, hne,
    a.evaluate_containPanic_containPanic, fun ε' β t p s' => t.evaluate_apply_eq_panic_iff hne⟩
  · rintro p t s' h (rfl | ⟨rfl, rfl⟩)
    · exact Action.evaluate_containPanic_panic h
    · exact Action.evaluate_containPanic_panic h
  · intro h
    cases ha : a.evaluate n s with
    | value r s₁ => simp [Action.evaluate_containPanic_pure ha] at h
    | panic p s₁ => simp [Action.evaluate_containPanic_panic ha] at h
    | exhausted => rfl
  · exact Action.evaluate_containPanic_exhausted

/-- Takes a note, then panics or gives a value as `w` does. -/
def risky (w : Work (List Trace) ℕ) : Action (List Trace) Fault ℕ :=
  .ofWork do
    emit .enter
    w

/-- Handles a failure by a panic that has its text. -/
def relapse : Tower (List Trace) Fault ℕ Fault Unit :=
  .handling (.tryCatch .direct fun e => Work.panic (.text e.text)) (.onward .discard .done)

/-- A value, a panic with a text, and one without, in the hands of a layer that panics over it. -/
theorem evaluate_containPanic_risky :
    (risky (return 3)).containPanic.evaluate 1 [] = .value (.ok 3) [.enter] ∧
    (risky (Work.panic (.text "boom"))).containPanic.evaluate 1 [] =
      .value (.error (.panicked "boom"))
        [.event .warn [("message", .text "effect panicked"), ("message", .text "boom")], .enter] ∧
    (relapse.apply (risky (Work.panic .mute)).containPanic).evaluate 1 [] =
      .panic (.text "Unknown panic")
        [.event .warn [("message", .text "effect panicked"), ("message", .text "Unknown panic")],
          .enter] := by
  obtain ⟨hvalue, -⟩ := evaluate_containPanic_cases (risky (return 3)) 1 []
  obtain ⟨-, htext, -⟩ := evaluate_containPanic_cases (risky (Work.panic (.text "boom"))) 1 []
  obtain ⟨-, hmute, -, -, -, hlayer⟩ := evaluate_containPanic_cases (risky (Work.panic .mute)) 1 []
  refine ⟨hvalue _ _ rfl, htext _ _ _ rfl (.inl rfl), (hlayer _ _ relapse _ _).2 ?_⟩
  exact ⟨_, _, hmute _ _ _ rfl (.inr ⟨rfl, rfl⟩), rfl⟩

end Deferral
