import Deferral.Action.Basic
import Deferral.Host
import Deferral.Loop

/-!
# Building actions

The ways of making an action from work and of making a larger action from smaller ones. None of them
runs anything: what they are given is put off until `evaluate`.

A failure skips everything but `observe`, `tryCatch`, `recover` and `mapError`. A panic skips
those too; only `containPanic` turns it into a failure.

`loop` repeats an action while it gives a left value. Each round makes the action of its seed and
runs it; a failure ends the loop, and so does a panic. The trace is told how the loop ended and
after how many rounds, unless a panic ended it.

Main statements: `evaluate_map` and `evaluate_bind` give the two combinators that most others are
made of as sequences of work.
-/

namespace Deferral

variable {σ ε ε' τ α β γ : Type}

namespace Action

/-- Work that cannot fail. -/
def ofWork (w : Work σ α) : Action σ ε α := .transformed (Except.ok <$> w)

/-- Work that may fail. -/
def ofFallible (w : Work σ (Except ε α)) : Action σ ε α := .transformed w

/-- Puts off the making of an action. -/
def defer (w : Work σ (Action σ ε α)) : Action σ ε α := .flattened (Except.ok <$> w)

/-- An outcome that is known already. -/
def ofExcept : Except ε α → Action σ ε α
  | .ok a => .pure a
  | .error e => .failed e

/-- Applies `f` to the value. -/
def map (a : Action σ ε α) (f : α → Work σ β) : Action σ ε β :=
  a.transform fun
    | .ok x => Except.ok <$> f x
    | .error e => return .error e

/-- Goes on with the action that `k` makes of the value. -/
def bind (a : Action σ ε α) (k : α → Work σ (Action σ ε β)) : Action σ ε β :=
  (a.map k).flatten

/-- Another name of `bind`. -/
def andThen (a : Action σ ε α) (k : α → Work σ (Action σ ε β)) : Action σ ε β := a.bind k

/-- Goes on with `b`, whatever the value. -/
def followedBy (a : Action σ ε α) (b : Action σ ε β) : Action σ ε β :=
  a.bind fun _ => return b

/-- Runs `a`, then `b`, and combines their values. -/
def zipWith (a : Action σ ε α) (b : Action σ ε β) (f : α → β → Work σ γ) : Action σ ε γ :=
  a.bind fun x => return b.map fun y => f x y

/-- Runs `a`, then `b`, and pairs their values. -/
def zip (a : Action σ ε α) (b : Action σ ε β) : Action σ ε (α × β) :=
  a.zipWith b fun x y => return (x, y)

/-- Runs `f`, then `a`, and applies the one value to the other. -/
def seq (f : Action σ ε (α → Work σ β)) (a : Action σ ε α) : Action σ ε β :=
  f.bind fun g => return a.map g

/-- Makes the outcome a value; never fails. -/
def observe (a : Action σ ε α) : Action σ ε (Except ε α) :=
  a.transform fun r => return .ok r

/-- Goes on with the action that `h` makes of a failure. -/
def tryCatch (a : Action σ ε α) (h : ε → Work σ (Action σ ε α)) : Action σ ε α :=
  a.observe.bind fun
    | .ok x => return .pure x
    | .error e => h e

/-- Makes a value of a failure. -/
def recover (a : Action σ ε α) (h : ε → Work σ α) : Action σ ε α :=
  a.transform fun
    | .ok x => return .ok x
    | .error e => Except.ok <$> h e

/-- Changes a failure. -/
def mapError (a : Action σ ε α) (f : ε → Work σ ε') : Action σ ε' α :=
  a.transform fun
    | .ok x => return .ok x
    | .error e => Except.error <$> f e

/-- The note that a panic was caught. -/
def panicCaught (p : Payload) : Trace :=
  .message .warn "effect panicked" [("message", .text p.message)]

/-- Makes a failure of a panic. What was done before the panic stays done. -/
def containPanic [Tracing σ] [OfFault ε] (a : Action σ ε α) : Action σ ε α :=
  .ofFallible do
    match ← a.evaluate.caught with
    | .ok r => return r
    | .error p =>
      emit (panicCaught p)
      return .error (ofFault (.panicked p.message))

/-! ## Loops -/

/-- The note that a loop ended after a number of rounds. The number has no bound; it is what a
counter of 64 bits shows as long as the loop has taken fewer than 2^64 rounds. -/
def loopEnded (outcome : Except ε β) (rounds : Nat) : Trace :=
  match outcome with
  | .ok _ => .message .trace "tail_rec_m loop finished" [("iterations", .number rounds)]
  | .error _ => .message .trace "tail_rec_m loop failed" [("iterations", .number rounds)]

/-- Repeats `step` from `seed` until it gives a right value or fails. -/
def loop [Tracing σ] (seed : τ) (step : τ → Work σ (Action σ ε (Either τ β))) : Action σ ε β :=
  .transformed (show Work σ (Except ε β) from do
    let (outcome, rounds) ← Work.iterateExcept (fun t => step t >>= evaluate) seed
    emit (loopEnded outcome rounds)
    return outcome)

/-! ## A console -/

/-- Prints a line. -/
def putLine [Console σ] (line : String) : Action σ ε Unit :=
  .ofWork (Work.update (Console.print (line ++ "\n")))

/-- Waits. No answer shows how long, so no time passes. -/
def sleep : Action σ ε Unit := .ofWork (return ())

/-- Takes a line of the input with its line end; the empty text at the end of the input. -/
def getLine [Console σ] [OfFault ε] : Action σ ε String :=
  .ofFallible do
    let line ← modifyGet (Console.takeLine : σ → Except Fault String × σ)
    return line.mapError ofFault

/-! ## What they do -/

/-- **The meaning of `map`.** A failure is kept, and the function is not called. -/
@[simp] theorem evaluate_map (a : Action σ ε α) (f : α → Work σ β) :
    (a.map f).evaluate = a.evaluate >>= fun
      | .ok x => Except.ok <$> f x
      | .error e => Pure.pure (.error e) := rfl

/-- **The meaning of `bind`.** The continuation is made and run only after a value. -/
@[simp] theorem evaluate_bind (a : Action σ ε α) (k : α → Work σ (Action σ ε β)) :
    (a.bind k).evaluate = a.evaluate >>= fun
      | .ok x => k x >>= evaluate
      | .error e => Pure.pure (.error e) := by
  simp only [Action.bind, evaluate_flatten, evaluate_map, bind_assoc]
  congr 1
  funext r
  cases r <;> simp

end Action
end Deferral
