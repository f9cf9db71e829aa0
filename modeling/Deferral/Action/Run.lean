import Deferral.Action.Combinators

/-!
# Running actions

`run` evaluates an action inside a span of its own, which is left in every case; a failure is noted
before the span is left. `runThen` hands the outcome to a callback, `agreeBy` runs two actions and
compares their outcomes.
-/

namespace Deferral

variable {σ ε α γ : Type} [Tracing σ]

namespace Action

/-- Evaluates, and notes a failure. -/
def evaluateNoted (a : Action σ ε α) : Work σ (Except ε α) := do
  let outcome ← a.evaluate
  if let .error _ := outcome then
    emit (.message .debug "effect evaluation failed" [])
  return outcome

/-- Evaluates an action inside a span of its own. -/
def run (a : Action σ ε α) : Work σ (Except ε α) := do
  emit (.span .trace "io.run")
  emit .enter
  a.evaluateNoted.always (Tracing.note .exit)

/-- Runs an action and hands its outcome to `k`. -/
def runThen (a : Action σ ε α) (k : Except ε α → Work σ γ) : Work σ γ := a.run >>= k

/-- Runs `l`, then `r`, and compares their outcomes: two values by the one test, two failures by the
other; a value and a failure differ. -/
def agreeBy (l r : Action σ ε α) (valueEq : α → α → Work σ Bool) (errorEq : ε → ε → Work σ Bool) :
    Work σ Bool := do
  let x ← l.run
  let y ← r.run
  match x, y with
  | .ok a, .ok b => valueEq a b
  | .error e, .error f => errorEq e f
  | _, _ => return false

/-- Runs `l`, then `r`, and tells whether their outcomes are equal. -/
def agree [BEq α] [BEq ε] (l r : Action σ ε α) : Work σ Bool :=
  l.agreeBy r (fun a b => return a == b) (fun e f => return e == f)

end Action
end Deferral
