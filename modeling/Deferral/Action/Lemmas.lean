import Deferral.Action.Combinators

/-!
# What actions do

Every way of building an action is read off what `evaluate` does with the result: which parts run,
in which order, and which of them are skipped after a failure. The kinds of action that were built
do not matter for it.

Main statements: `evaluate_zipWith` and `evaluate_seq`, the left side runs first;
`evaluate_tryCatch`, a handler is called only with a failure; `evaluate_containPanic_pure` and
`evaluate_loop`.
-/

namespace Deferral

variable {σ ε ε' τ α β γ : Type}

namespace Action

@[simp] theorem evaluate_ofWork (w : Work σ α) :
    (ofWork w : Action σ ε α).evaluate = Except.ok <$> w := rfl

@[simp] theorem evaluate_ofFallible (w : Work σ (Except ε α)) : (ofFallible w).evaluate = w := rfl

/-- The action is made when it is run, and run at once. -/
@[simp] theorem evaluate_defer (w : Work σ (Action σ ε α)) :
    (defer w).evaluate = w >>= evaluate := by
  rw [defer, evaluate_flattened, map_eq_pure_bind, bind_assoc]
  simp

@[simp] theorem evaluate_ofExcept (r : Except ε α) :
    (ofExcept r : Action σ ε α).evaluate = Pure.pure r := by cases r <;> rfl

@[simp] theorem evaluate_andThen (a : Action σ ε α) (k : α → Work σ (Action σ ε β)) :
    (a.andThen k).evaluate = (a.bind k).evaluate := rfl

/-- The second action is run only after a value of the first. -/
@[simp] theorem evaluate_followedBy (a : Action σ ε α) (b : Action σ ε β) :
    (a.followedBy b).evaluate = a.evaluate >>= fun
      | .ok _ => b.evaluate
      | .error e => Pure.pure (.error e) := by
  rw [followedBy, evaluate_bind]
  rfl

/-- The left action runs first, and a failure of it skips the right one. -/
@[simp] theorem evaluate_zipWith (a : Action σ ε α) (b : Action σ ε β) (f : α → β → Work σ γ) :
    (a.zipWith b f).evaluate = a.evaluate >>= fun
      | .ok x => (b.map fun y => f x y).evaluate
      | .error e => Pure.pure (.error e) := by
  rw [zipWith, evaluate_bind]
  rfl

/-- The function is there before its argument is run. -/
@[simp] theorem evaluate_seq (f : Action σ ε (α → Work σ β)) (a : Action σ ε α) :
    (f.seq a).evaluate = f.evaluate >>= fun
      | .ok g => (a.map g).evaluate
      | .error e => Pure.pure (.error e) := by
  rw [seq, evaluate_bind]
  congr 1
  funext r
  cases r <;> simp

/-- The outcome becomes a value; only a panic is no outcome. -/
@[simp] theorem evaluate_observe (a : Action σ ε α) :
    a.observe.evaluate = a.evaluate >>= fun r => Pure.pure (.ok r) := rfl

/-- **The meaning of `tryCatch`.** The handler is called only with a failure of `a`. -/
@[simp] theorem evaluate_tryCatch (a : Action σ ε α) (h : ε → Work σ (Action σ ε α)) :
    (a.tryCatch h).evaluate = a.evaluate >>= fun
      | .ok x => Pure.pure (.ok x)
      | .error e => h e >>= evaluate := by
  rw [tryCatch, evaluate_bind, evaluate_observe, bind_assoc]
  congr 1
  funext r
  cases r <;> simp

/-- A failure becomes a value, without another action. -/
@[simp] theorem evaluate_recover (a : Action σ ε α) (h : ε → Work σ α) :
    (a.recover h).evaluate = a.evaluate >>= fun
      | .ok x => Pure.pure (.ok x)
      | .error e => Except.ok <$> h e := rfl

/-- A failure stays a failure. -/
@[simp] theorem evaluate_mapError (a : Action σ ε α) (f : ε → Work σ ε') :
    (a.mapError f).evaluate = a.evaluate >>= fun
      | .ok x => Pure.pure (.ok x)
      | .error e => Except.error <$> f e := rfl

/-- An action that does not panic is left as it is. -/
theorem evaluate_containPanic_pure [Tracing σ] [OfFault ε] {a : Action σ ε α} {r : Except ε α}
    {n : Nat} {s s' : σ} (h : a.evaluate n s = .value r s') :
    a.containPanic.evaluate n s = .value r s' := by
  simp [containPanic, Work.bind_run, Work.caught, h]

/-- A panic becomes a failure, with one note after all that was done before. -/
theorem evaluate_containPanic_panic [Tracing σ] [OfFault ε] {a : Action σ ε α} {p : Payload}
    {n : Nat} {s s' : σ} (h : a.evaluate n s = .panic p s') :
    a.containPanic.evaluate n s =
      .value (.error (ofFault (.panicked p.message))) (Tracing.note (panicCaught p) s') := by
  simp only [containPanic, evaluate_ofFallible, Work.bind_run, Work.caught, h]
  rfl

/-- A loop runs its rounds as work, and makes one note when they have ended without a panic. -/
theorem evaluate_loop [Tracing σ] (seed : τ) (step : τ → Work σ (Action σ ε (Either τ β))) :
    (loop seed step).evaluate = Work.iterateExcept (fun t => step t >>= evaluate) seed >>= fun r =>
      emit (loopEnded r.1 r.2) >>= fun _ => Pure.pure r.1 := rfl

end Action
end Deferral
