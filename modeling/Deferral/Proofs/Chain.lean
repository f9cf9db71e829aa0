import Deferral.Action.Lemmas

/-!
# Chains of continuations

`bind` obeys the laws of a monad for what evaluation does: equal work, so the same
outcome from each state, with the same changes of the state in the same order, and
the same panics. Continuations may do work before they have made their action.

* `evaluate_bind_assoc`: two continuations after an action, in either bracketing.
* `Bracketing.evaluate_action`: **all bracketings of a chain do the same work.** A
  chain is an action with any number of continuations after it. Its bracketings
  group the continuations in any way, from the chain that binds one continuation
  after the other to the one in which each continuation holds all later ones.
-/

namespace Deferral

variable {σ ε α β γ : Type}

namespace Action

/-- What an action does decides what it does with a continuation. -/
theorem evaluate_bind_congr {a b : Action σ ε α} (h : a.evaluate = b.evaluate)
    (k : α → Work σ (Action σ ε β)) : (a.bind k).evaluate = (b.bind k).evaluate := by
  rw [evaluate_bind, evaluate_bind, h]

/-- A value goes straight to the continuation, and what that does while it makes its action is done.
-/
theorem evaluate_pure_bind (x : α) (k : α → Work σ (Action σ ε β)) :
    ((.pure x : Action σ ε α).bind k).evaluate = k x >>= evaluate := by
  rw [evaluate_bind, evaluate_pure, pure_bind]

/-- A continuation that only holds the value changes nothing. -/
theorem evaluate_bind_pure (a : Action σ ε α) :
    (a.bind fun x => return .pure x).evaluate = a.evaluate := by
  rw [evaluate_bind]
  refine Eq.trans ?_ (bind_pure a.evaluate)
  congr 1
  funext r
  cases r with
  | ok x => exact pure_bind (.pure x) evaluate
  | error e => rfl

/-- Two continuations after an action: the second may be held by the first. -/
theorem evaluate_bind_assoc (a : Action σ ε α) (f : α → Work σ (Action σ ε β))
    (g : β → Work σ (Action σ ε γ)) :
    (a.bind fun x => do return (← f x).bind g).evaluate = ((a.bind f).bind g).evaluate := by
  simp only [evaluate_bind, bind_assoc, pure_bind]
  congr 1
  funext r
  cases r with
  | ok x => simp only [bind_assoc]
  | error e => rw [pure_bind]

end Action

/-- An action and the continuations after it, in order. -/
inductive Chain (σ ε : Type) : Type → Type 1 where
  | start {α : Type} (a : Action σ ε α) : Chain σ ε α
  | snoc {α β : Type} (c : Chain σ ε α) (k : α → Work σ (Action σ ε β)) : Chain σ ε β

/-- Some continuations after each other, with brackets. -/
inductive Links (σ ε : Type) : Type → Type → Type 1 where
  | one {α β : Type} (k : α → Work σ (Action σ ε β)) : Links σ ε α β
  | join {α β γ : Type} (f : Links σ ε α β) (g : Links σ ε β γ) : Links σ ε α γ

/-- An action and continuations after it, with brackets. -/
inductive Bracketing (σ ε : Type) : Type → Type 1 where
  | start {α : Type} (a : Action σ ε α) : Bracketing σ ε α
  | bind {α β : Type} (b : Bracketing σ ε α) (l : Links σ ε α β) : Bracketing σ ε β

/-- The continuation that is made of all: each holds the ones after it. -/
def Links.arrow {α β : Type} : Links σ ε α β → α → Work σ (Action σ ε β)
  | .one k => k
  | .join f g => fun x => do return (← f.arrow x).bind g.arrow

/-- The action that binds what is in the brackets. -/
def Bracketing.action {α : Type} : Bracketing σ ε α → Action σ ε α
  | .start a => a
  | .bind b l => b.action.bind l.arrow

namespace Chain

/-- The action that binds one continuation after the other. -/
def action {α : Type} : Chain σ ε α → Action σ ε α
  | start a => a
  | snoc c k => c.action.bind k

/-- Adds continuations at the end. -/
def extend {α β : Type} (c : Chain σ ε α) : Links σ ε α β → Chain σ ε β
  | .one k => c.snoc k
  | .join f g => (c.extend f).extend g

/-- To bind what continuations are made of is to bind them one after the other. -/
theorem evaluate_extend (l : Links σ ε α β) (c : Chain σ ε α) :
    (c.action.bind l.arrow).evaluate = (c.extend l).action.evaluate := by
  -- on the brackets, for any chain before them
  induction l with
  | one k => rfl
  | join f g ihf ihg =>
    -- the brackets move to the left, where `f` extends the chain before `g` does
    calc (c.action.bind (Links.join f g).arrow).evaluate
        = ((c.action.bind f.arrow).bind g.arrow).evaluate :=
          Action.evaluate_bind_assoc c.action f.arrow g.arrow
      _ = ((c.extend f).action.bind g.arrow).evaluate := Action.evaluate_bind_congr (ihf c) g.arrow
      _ = (c.extend (.join f g)).action.evaluate := ihg (c.extend f)

end Chain

namespace Bracketing

/-- The chain without the brackets. -/
def chain {α : Type} : Bracketing σ ε α → Chain σ ε α
  | start a => .start a
  | bind b l => b.chain.extend l

/-- **All bracketings of a chain do the same work**, that of its continuations one
after the other. -/
theorem evaluate_action (b : Bracketing σ ε α) : b.action.evaluate = b.chain.action.evaluate := by
  induction b with
  | start a => rfl
  | bind b l ih =>
    calc (b.action.bind l.arrow).evaluate
        = (b.chain.action.bind l.arrow).evaluate := Action.evaluate_bind_congr ih l.arrow
      _ = (b.chain.extend l).action.evaluate := b.chain.evaluate_extend l

end Bracketing

/-- **The laws of `bind`.** A value goes straight to the continuation, a continuation
that only holds the value changes nothing, and the bracketing of a chain does not
matter. -/
theorem evaluate_bind_laws :
    (∀ (x : α) (k : α → Work σ (Action σ ε β)),
      ((.pure x : Action σ ε α).bind k).evaluate = k x >>= Action.evaluate) ∧
    (∀ a : Action σ ε α, (a.bind fun x => return .pure x).evaluate = a.evaluate) ∧
    ∀ b : Bracketing σ ε β, b.action.evaluate = b.chain.action.evaluate :=
  ⟨Action.evaluate_pure_bind, Action.evaluate_bind_pure, Bracketing.evaluate_action⟩

end Deferral
