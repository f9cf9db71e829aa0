import Deferral.Proofs.Containment
import Deferral.Proofs.Handlers
import Deferral.Proofs.Spans

/-!
# Runs with a callback

`runThen` runs an action and hands its outcome to a callback. The callback comes after the run: all
that the action does is done, the span of the run is left, and what the callback does is under
nothing that the action was given, `containPanic` included.

* `Action.lists_run`: a run adds to a list what the evaluation inside it adds.
* `Action.runThen_eq_panic_iff`: with panics contained, a panic is one of the callback.
* `runThen_calls_once`: **the callback is called once, after the run**, unless the action panics.
-/

namespace Deferral

variable {σ ε α γ ω : Type} [Tracing σ] {n : ℕ} {s s' s₁ : σ}

/-- The value that work ends with, if it does. -/
def Ending.value? : Ending σ α → Option α
  | .value a _ => some a
  | _ => none

namespace Action

variable {a : Action σ ε α} {k : Except ε α → Work σ γ}

theorem runThen_of_value {r : Except ε α} (h : a.run n s = .value r s₁) :
    a.runThen k n s = k r n s₁ := by
  rw [runThen, Work.bind_run, h]

theorem runThen_of_panic {p : Payload} (h : a.run n s = .panic p s₁) :
    a.runThen k n s = .panic p s₁ := by
  rw [runThen, Work.bind_run, h]

/-- A run has a value where the evaluation inside its span has it. -/
theorem exists_run_eq_value {r : Except ε α} (h : a.evaluate n (intoSpan s) = .value r s₁) :
    ∃ s₂, (Ending.value r s₁).outOfSpan = .value r s₂ ∧ a.run n s = .value r s₂ := by
  rw [run_eq_outOfSpan, h]
  cases r with
  | ok x => exact ⟨_, rfl, rfl⟩
  | error e => exact ⟨_, rfl, rfl⟩

/-- A panic inside the span goes on as it is, and the span is left on the way. -/
theorem run_eq_panic {p : Payload} (h : a.evaluate n (intoSpan s) = .panic p s₁) :
    a.run n s = .panic p (Tracing.note .exit s₁) := by
  rw [run_eq_outOfSpan, h]
  rfl

/-- **A run adds to a list what the evaluation adds**, if notes add nothing. -/
theorem lists_run {list : σ → List ω} {es : List ω}
    (hnote : ∀ t s, list (Tracing.note t s) = list s) (ha : a.evaluate.Lists list es) :
    a.run.Lists list es := by
  intro n s s' hs
  have hmap := Ending.map_state?_outOfSpan hnote (a.evaluate n (intoSpan s))
  rw [← run_eq_outOfSpan, hs] at hmap
  obtain ⟨s₁, hs₁, heq⟩ := Option.map_eq_some_iff.1 hmap.symm
  rw [← heq, ha n _ s₁ hs₁, view_intoSpan hnote]

/-- The callback adds its outcome to a list to which the action adds nothing. -/
theorem lists_runThen {calls : σ → List (Except ε α)}
    (hnote : ∀ t s, calls (Tracing.note t s) = calls s) (ha : a.evaluate.Lists calls [])
    (hk : ∀ r, (k r).Lists calls [r]) (hs : (a.runThen k n s).state? = some s') :
    calls s' = calls s ++ (a.run n s).value?.toList := by
  have hrun := lists_run hnote ha n s
  rw [runThen, Work.bind_run] at hs
  -- only after a value is there a callback, which adds that value
  cases h : a.run n s with
  | value r s₁ =>
    rw [h] at hs hrun
    rw [hk r n s₁ s' hs, hrun s₁ rfl, List.append_nil]
    rfl
  | panic p s₁ =>
    rw [h] at hs hrun
    exact hrun s' hs
  | exhausted =>
    rw [h] at hs
    cases hs

/-- With panics contained, a run does not panic, and the notes of its span do not either. -/
theorem run_containPanic_ne_panic [OfFault ε] (a : Action σ ε α) (n : ℕ) (s : σ) (p : Payload)
    (s' : σ) : a.containPanic.run n s ≠ .panic p s' := by
  intro h
  rw [run_eq_outOfSpan] at h
  have hne := a.evaluate_containPanic_ne_panic n (intoSpan s)
  -- to leave the span keeps the kind of ending, so the panic would be one of the evaluation
  generalize a.containPanic.evaluate n (intoSpan s) = e at h hne
  rcases e with ⟨e | x, s₁⟩ | ⟨q, s₁⟩ | _
  · cases h
  · cases h
  · exact hne q s₁ rfl
  · cases h

/-- With panics contained around the action, there is a panic exactly where the callback panics. -/
theorem runThen_eq_panic_iff [OfFault ε] (a : Action σ ε α) (k : Except ε α → Work σ γ) (n : ℕ)
    (s : σ) (p : Payload) (s' : σ) : a.containPanic.runThen k n s = .panic p s' ↔
      ∃ r s₁, a.containPanic.run n s = .value r s₁ ∧ k r n s₁ = .panic p s' :=
  Work.bind_eq_panic_iff (a.run_containPanic_ne_panic n s)

end Action

/-- **The callback is called once, after the run.** Where the evaluation inside the span of the run
gives a value or a failure, the span is left, which ends the run, and from there on all is done by
the callback, with the outcome of the run. Where it panics, the panic goes on as it is once the span
is left, and there is no callback. So a list of the callback's calls, which only the callback
adds to, has one entry more, the outcome, or none. A panic of the callback goes on as it is, also
if panics of the action are contained, and then there is no other. -/
theorem runThen_calls_once (a : Action σ ε α) (k : Except ε α → Work σ γ) (n : ℕ) (s : σ) :
    (∀ r s₁, a.evaluate n (intoSpan s) = .value r s₁ →
      ∃ s₂, (Ending.value r s₁).outOfSpan = .value r s₂ ∧ a.run n s = .value r s₂ ∧
        a.runThen k n s = k r n s₂) ∧
    (∀ p s₁, a.evaluate n (intoSpan s) = .panic p s₁ →
      a.run n s = .panic p (Tracing.note .exit s₁) ∧
      a.runThen k n s = .panic p (Tracing.note .exit s₁)) ∧
    (∀ calls : σ → List (Except ε α), (∀ t s, calls (Tracing.note t s) = calls s) →
      a.evaluate.Lists calls [] → (∀ r, (k r).Lists calls [r]) →
      ∀ s', (a.runThen k n s).state? = some s' → calls s' = calls s ++ (a.run n s).value?.toList) ∧
    ∀ [OfFault ε] (p : Payload) (s' : σ), a.containPanic.runThen k n s = .panic p s' ↔
      ∃ r s₁, a.containPanic.run n s = .value r s₁ ∧ k r n s₁ = .panic p s' := by
  refine ⟨fun r s₁ h => ?_, fun p s₁ h => ?_, fun calls hnote ha hk s' hs =>
    Action.lists_runThen hnote ha hk hs, Action.runThen_eq_panic_iff a k n s⟩
  · obtain ⟨s₂, hs₂, hrun⟩ := Action.exists_run_eq_value h
    exact ⟨s₂, hs₂, hrun, Action.runThen_of_value hrun⟩
  · have hrun := Action.run_eq_panic h
    exact ⟨hrun, Action.runThen_of_panic hrun⟩

/-- A host that lists the outcomes that a callback was called with. -/
abbrev Calls : Type := List (Except Fault ℕ) × List Trace

/-- Lists the outcome, and panics if it is a failure. -/
def expecting (r : Except Fault ℕ) : Work Calls ℕ := do
  Work.update fun s => (s.1 ++ [r], s.2)
  match r with
  | .ok x => return x
  | .error e => Work.panic (.text e.text)

/-- Takes a note, then panics with a text. -/
def bursting : Action Calls Fault ℕ := .ofWork do
  emit .enter
  Work.panic (.text "boom")

/-- A callback after a panic, after a value, and one that panics itself after a contained panic. -/
theorem runThen_calls_expecting :
    bursting.runThen expecting 1 ([], []) =
      .panic (.text "boom") ([], [.exit, .enter, .enter, .span .trace "io.run"]) ∧
    (Action.pure 3).runThen expecting 1 ([], []) =
      .value 3 ([.ok 3], [.exit, .enter, .span .trace "io.run"]) ∧
    (∃ s', (bursting.containPanic.runThen expecting 1 ([], [])) = .panic (.text "boom") s' ∧
      s'.1 = [] ++ [.error (.panicked "boom")]) := by
  obtain ⟨-, hpanic, -, -⟩ := runThen_calls_once bursting expecting 1 ([], [])
  obtain ⟨hvalue, -⟩ := runThen_calls_once (.pure 3) expecting 1 ([], [])
  obtain ⟨-, -, -, hcontained⟩ := runThen_calls_once bursting expecting 1 ([], [])
  obtain ⟨-, -, hcalls, -⟩ := runThen_calls_once bursting.containPanic expecting 1 ([], [])
  obtain ⟨_, hleft, -, hthree⟩ := hvalue (.ok 3) _ rfl
  cases hleft
  have hburst : bursting.containPanic.evaluate.Lists Prod.fst ([] : List (Except Fault ℕ)) := by
    intro n s s' hs
    cases hs
    exact (List.append_nil _).symm
  have hlists : ∀ r, (expecting r).Lists Prod.fst [r] := by
    rintro (e | x) n s s' hs <;> cases hs <;> rfl
  have hescapes := (hcontained (.text "boom") _).2 ⟨_, _, rfl, rfl⟩
  refine ⟨(hpanic _ _ rfl).2, hthree, _, hescapes, ?_⟩
  exact hcalls Prod.fst (fun _ _ => rfl) hburst hlists _ (by rw [hescapes]; rfl)

end Deferral
