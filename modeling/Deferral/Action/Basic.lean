import Deferral.Text.Layout
import Deferral.Text.Quoted
import Deferral.Work

/-!
# Actions

An `Action σ ε α` describes work on a host state `σ` that fails with an `ε` or gives an `α`. There
are four kinds: a value, a failure, work that has been put off, and work put off that will give
the next action. What the work is made of is hidden in it, so that every way of building actions
ends in one of the four.

`evaluate` runs an action. It is structural recursion on the action: the action that work has yet to
give is part of the one that holds the work.

`layout` shows an action by its kind, and by what it holds if that is there already. Work that was
put off cannot be looked into, and showing it does not run it.

Main statements: `evaluate_pure`, `evaluate_failed`, `evaluate_transform` and `evaluate_flatten`,
from which the meaning of every combinator follows.
-/

namespace Deferral

/-- A description of work on a host state `σ` that may fail with an `ε` or give an `α`. -/
inductive Action (σ ε α : Type) where
  /-- Gives a value. -/
  | pure (a : α)
  /-- Fails. -/
  | failed (e : ε)
  /-- Work that was put off. -/
  | transformed (work : Nat → σ → Ending σ (Except ε α))
  /-- Work that was put off, and that gives the next action. -/
  | flattened (work : Nat → σ → Ending σ (Except ε (Action σ ε α)))

variable {σ ε ε' α β : Type}

namespace Action

mutual

/-- Runs an action. -/
def evaluate : Action σ ε α → Work σ (Except ε α)
  | .pure a => fun _ s => .value (.ok a) s
  | .failed e => fun _ s => .value (.error e) s
  | .transformed work => work
  | .flattened work => fun n s => goOn (work n s) n
termination_by structural a => a

/-- Runs the action that work has given. -/
def goOn : Ending σ (Except ε (Action σ ε α)) → Nat → Ending σ (Except ε α)
  | .value r s, n => continueWith r n s
  | .panic p s, _ => .panic p s
  | .exhausted, _ => .exhausted
termination_by structural e => e

/-- Runs an action if there is one. -/
def continueWith : Except ε (Action σ ε α) → Work σ (Except ε α)
  | .ok a => evaluate a
  | .error e => fun _ s => .value (.error e) s
termination_by structural r => r

end

/-- Puts off the work of `a`, followed by `f` on its outcome. -/
def transform (a : Action σ ε α) (f : Except ε α → Work σ (Except ε' β)) : Action σ ε' β :=
  .transformed (a.evaluate >>= f)

/-- An action that gives an action, as one action. -/
def flatten (a : Action σ ε (Action σ ε α)) : Action σ ε α := .flattened a.evaluate

@[simp] theorem evaluate_pure (a : α) :
    (Action.pure a : Action σ ε α).evaluate = Pure.pure (.ok a) := rfl

@[simp] theorem evaluate_failed (e : ε) :
    (failed e : Action σ ε α).evaluate = Pure.pure (.error e) := rfl

@[simp] theorem evaluate_transformed (work : Work σ (Except ε α)) :
    (transformed work : Action σ ε α).evaluate = work := rfl

/-- The action that the work gives is run next, on the state that the work left. -/
theorem evaluate_flattened (work : Work σ (Except ε (Action σ ε α))) :
    (flattened work).evaluate = work >>= continueWith := by
  funext n s
  change goOn (work n s) n = _
  rw [Work.bind_run]
  cases work n s <;> rfl

@[simp] theorem continueWith_ok (a : Action σ ε α) : continueWith (.ok a) = a.evaluate := rfl

@[simp] theorem continueWith_error (e : ε) :
    continueWith (.error e : Except ε (Action σ ε α)) = Pure.pure (.error e) := rfl

/-- What is put off is the work, and then what was made of its outcome. -/
@[simp] theorem evaluate_transform (a : Action σ ε α) (f : Except ε α → Work σ (Except ε' β)) :
    (a.transform f).evaluate = a.evaluate >>= f := rfl

/-- Two layers are run one after the other. -/
@[simp] theorem evaluate_flatten (a : Action σ ε (Action σ ε α)) :
    a.flatten.evaluate = a.evaluate >>= continueWith := evaluate_flattened _

end Action

/-! ## Actions shown -/

/-- What stands for work that was put off. -/
def deferredLayout : Layout := .atom (Text.quoted "<deferred>")

/-- How the kind of an action is shown, and what it holds. -/
def Action.kindLayout (value : α → Layout) (failure : ε → Layout) : Action σ ε α → Layout
  | .pure a => .call "Pure" [value a]
  | .failed e => .call "Failed" [failure e]
  | .transformed _ => .call "Transformed" [deferredLayout]
  | .flattened _ => .call "Flattened" [deferredLayout]

/-- How an action is shown. -/
def Action.layout (value : α → Layout) (failure : ε → Layout) (a : Action σ ε α) : Layout :=
  .call "IO" [a.kindLayout value failure]

end Deferral
