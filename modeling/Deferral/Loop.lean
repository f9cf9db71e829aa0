import Deferral.Either.Order

/-!
# Loops

`Work.iterate` repeats a step while it gives a left value, without recursion on the host's stack,
and counts the steps. The budget bounds their number.

`Work.iterateExcept` does so for a step that may also fail, which ends the loop.

Main statements: `iterateFrom_succ` takes one round off a loop; `iterateFrom_left`,
`iterateFrom_right`, `iterateFrom_panic` and `iterateFrom_exhausted` say what that round decides.
-/

namespace Deferral

variable {σ ε τ α : Type}

namespace Work

/-- The loop after `done` steps, with at most `more` steps to go. The count is a
natural number; it is what a counter of 64 bits shows while fewer than 2^64 steps are taken. -/
def iterateFrom (step : τ → Work σ (Either τ α)) (budget : Nat) :
    Nat → Nat → τ → σ → Ending σ (α × Nat)
  | 0, _, _, _ => .exhausted
  | more + 1, done, t, s =>
    match step t budget s with
    | .value (.left t') s' => iterateFrom step budget more (done + 1) t' s'
    | .value (.right a) s' => .value (a, done + 1) s'
    | .panic p s' => .panic p s'
    | .exhausted => .exhausted

/-- Repeats `step` from `seed` until it gives a right value; gives that value and the number of
steps that were taken. -/
def iterate (step : τ → Work σ (Either τ α)) (seed : τ) : Work σ (α × Nat) := fun n s =>
  iterateFrom step n n 0 seed s

/-- One round of a loop whose step may fail: a failure ends it as a right value does. -/
def exceptRound (step : τ → Work σ (Except ε (Either τ α))) (t : τ) :
    Work σ (Either τ (Except ε α)) := do
  match ← step t with
  | .ok (.left t') => return .left t'
  | .ok (.right a) => return .right (.ok a)
  | .error e => return .right (.error e)

/-- Repeats `step` from `seed` until it gives a right value or fails; gives the outcome and the
number of steps that were taken. -/
def iterateExcept (step : τ → Work σ (Except ε (Either τ α))) (seed : τ) :
    Work σ (Except ε α × Nat) := iterate (exceptRound step) seed

section Round

variable {step : τ → Work σ (Either τ α)} {n more done : Nat} {t : τ} {s s' : σ}

/-- A loop is one round, then what is left of it under the same budget. -/
theorem iterateFrom_succ : iterateFrom step n (more + 1) done t = (step t >>= fun
    | .left t' => fun _ s => iterateFrom step n more (done + 1) t' s
    | .right a => pure (a, done + 1)) n := by
  funext s
  rw [iterateFrom, bind_run]
  rcases step t n s with ⟨t' | a, s'⟩ | ⟨p, s'⟩ | _ <;> rfl

/-- A left value is the seed of the rest. -/
theorem iterateFrom_left {t' : τ} (h : step t n s = .value (.left t') s') :
    iterateFrom step n (more + 1) done t s = iterateFrom step n more (done + 1) t' s' := by
  rw [iterateFrom, h]

/-- A right value ends the loop, and the round that gave it is counted. -/
theorem iterateFrom_right {a : α} (h : step t n s = .value (.right a) s') :
    iterateFrom step n (more + 1) done t s = .value (a, done + 1) s' := by
  rw [iterateFrom, h]

/-- A panic of a round leaves the loop. -/
theorem iterateFrom_panic {p : Payload} (h : step t n s = .panic p s') :
    iterateFrom step n (more + 1) done t s = .panic p s' := by
  rw [iterateFrom, h]

/-- Where a round has no answer, neither has the loop. -/
theorem iterateFrom_exhausted (h : step t n s = .exhausted) :
    iterateFrom step n (more + 1) done t s = .exhausted := by
  rw [iterateFrom, h]

end Round

/-- Loops whose rounds are the same on all seeds that are met are the same. -/
theorem iterate_congr {round round' : τ → Work σ (Either τ α)} {met : τ → Prop}
    (hround : ∀ t, met t → round t = round' t)
    (hnext : ∀ t t' n s s', met t → round t n s = .value (.left t') s' → met t')
    {seed : τ} (hseed : met seed) : iterate round seed = iterate round' seed := by
  funext n s
  -- on the rounds that are allowed, for any seed that is met
  have key : ∀ more done t s, met t →
      iterateFrom round n more done t s = iterateFrom round' n more done t s := by
    intro more
    induction more with
    | zero => exact fun _ _ _ _ => rfl
    | succ more ih =>
      intro done t s ht
      rw [iterateFrom, iterateFrom, ← hround t ht]
      cases h : round t n s with
      | value e s' =>
        cases e with
        | left t' => exact ih (done + 1) t' s' (hnext t t' n s s' ht h)
        | right a => rfl
      | panic p s' => rfl
      | exhausted => rfl
  exact key n 0 seed s hseed

end Work
end Deferral
