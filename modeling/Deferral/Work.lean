/-!
# Work done by the host

Actions are descriptions; what happens when one is run is written as `Work σ α`: a function of a
budget and of the host's state `σ`. Work ends with a value, or with a panic that unwinds to whoever
catches it, or it uses up its budget. The state reached is kept in the first two cases, so that
nothing done before a panic is lost.

The budget bounds every loop and every chain of calls, and is only read, never spent: two pieces
of work that follow each other get the same budget. It stands for time that the host is willing to
wait, and `exhausted` is not an answer.

Main statements: `Work σ` is a lawful monad; `caught_panic`, `caught_pure` and `always_panic` say
what the two operations that see a panic do with it.
-/

namespace Deferral

/-- What a panic carries while it unwinds: a text, or something that has none. -/
inductive Payload where
  | text (t : String)
  | mute
  deriving DecidableEq

/-- The text that a caught panic leaves behind. -/
def Payload.message : Payload → String
  | .text t => t
  | .mute => "Unknown panic"

/-- A computation without state that may panic. -/
abbrev Checked (α : Type) : Type := Except Payload α

/-- How a piece of work ends: with a value, with a panic, or without an answer because the budget
was too small. -/
inductive Ending (σ α : Type) where
  | value (a : α) (s : σ)
  | panic (p : Payload) (s : σ)
  | exhausted

/-- Work on a state `σ`, given a budget. -/
def Work (σ α : Type) : Type := Nat → σ → Ending σ α

variable {σ τ α β : Type}

namespace Work

/-- Runs the work with a budget from a state. -/
@[inline] def runFrom (w : Work σ α) (budget : Nat) (s : σ) : Ending σ α := w budget s

/-- Work that only gives a value. -/
@[inline] protected def pure (a : α) : Work σ α := fun _ s => .value a s

/-- First `w`, then `f` on its value; a panic of `w` skips `f`. -/
@[inline] protected def bind (w : Work σ α) (f : α → Work σ β) : Work σ β := fun n s =>
  match w n s with
  | .value a s' => f a n s'
  | .panic p s' => .panic p s'
  | .exhausted => .exhausted

instance : Monad (Work σ) where
  pure := Work.pure
  bind := Work.bind

/-- A value is given under every budget, and the state stays. -/
@[simp] theorem pure_run (a : α) (n : Nat) (s : σ) : (pure a : Work σ α) n s = .value a s := rfl

/-- What comes next is reached by a value only, and gets the same budget. -/
theorem bind_run (w : Work σ α) (f : α → Work σ β) (n : Nat) (s : σ) :
    (w >>= f) n s = match w n s with
      | .value a s' => f a n s'
      | .panic p s' => .panic p s'
      | .exhausted => .exhausted := rfl

/-- To give the value on changes nothing. -/
theorem bind_pure_run (w : Work σ α) : (w >>= fun a => pure a) = w := by
  funext n s
  rw [bind_run]
  cases w n s <;> rfl

/-- Sequences may be bracketed either way. -/
theorem bind_bind_run {γ : Type} (w : Work σ α) (f : α → Work σ β) (g : β → Work σ γ) :
    w >>= f >>= g = w >>= fun a => f a >>= g := by
  funext n s
  simp only [bind_run]
  cases w n s <;> rfl

instance : LawfulMonad (Work σ) :=
  LawfulMonad.mk' (Work σ) bind_pure_run (fun _ _ => rfl) bind_bind_run

/-- The state of the host is the state of the monad. -/
instance : MonadStateOf σ (Work σ) where
  get := fun _ s => .value s s
  set s := fun _ _ => .value () s
  modifyGet f := fun _ s => let r := f s; .value r.1 r.2

/-- Changes the state. -/
@[inline] def update (f : σ → σ) : Work σ Unit := fun _ s => .value () (f s)

/-- Unwinds with a payload. -/
@[inline] def panic (p : Payload) : Work σ α := fun _ s => .panic p s

/-- Gives up without an answer. -/
@[inline] def giveUp : Work σ α := fun _ _ => .exhausted

/-- A computation without state, as work. -/
@[inline] def ofChecked : Checked α → Work σ α
  | .ok a => fun _ s => .value a s
  | .error p => fun _ s => .panic p s

/-- Turns a panic into a value; the state reached by the panic stays. -/
@[inline] def caught (w : Work σ α) : Work σ (Checked α) := fun n s =>
  match w n s with
  | .value a s' => .value (.ok a) s'
  | .panic p s' => .value (.error p) s'
  | .exhausted => .exhausted

/-- Changes the state after `w`, also when `w` unwinds. -/
@[inline] def always (w : Work σ α) (f : σ → σ) : Work σ α := fun n s =>
  match w n s with
  | .value a s' => .value a (f s')
  | .panic p s' => .panic p (f s')
  | .exhausted => .exhausted

@[simp] theorem caught_pure (a : α) : caught (pure a : Work σ α) = pure (.ok a) := rfl

/-- A caught panic is a value. -/
@[simp] theorem caught_panic (p : Payload) : caught (panic p : Work σ α) = pure (.error p) := rfl

@[simp] theorem always_pure (a : α) (f : σ → σ) (n : Nat) (s : σ) :
    always (pure a) f n s = .value a (f s) := rfl

/-- The state is changed on the way of a panic too. -/
@[simp] theorem always_panic (p : Payload) (f : σ → σ) (n : Nat) (s : σ) :
    always (panic p : Work σ α) f n s = .panic p (f s) := rfl

/-- A panic skips what comes next. -/
@[simp] theorem panic_bind (p : Payload) (f : α → Work σ β) : (panic p >>= f) = panic p := rfl

end Work
end Deferral
