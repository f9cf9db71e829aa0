import Deferral.Carrier.Instances
import Deferral.Proofs.Rounds

/-!
# Failures and their handlers

`tryCatch` is to failures what `bind` is to values, so the failures of a carrier form a
monad too: a failure that is raised goes to its handler, a handler that only raises
changes nothing, and handlers around handlers may be bracketed either way. A handler
is there for the failures of what it stands around, and for no others: not for its own,
and not for those of what comes next.

A result is there as soon as it is built; what an action comes to is seen when it is
evaluated (`Answering`). What both have in common is `LawfulRecoverable`, and the laws
follow from it (`HandlerLaws.of_lawful`).

* `answer_handled_bound`: a handled computation and what comes next, step by step.
* `RunLaws.of_laws`: the same laws for actions that are run, each in a span of its own.
* `handlers_scoped`: **the laws of handlers**, for actions and for results.
-/

namespace Deferral

variable {σ ε α β : Type}

/-- Carriers that come to an outcome. -/
class Answering (σ : Type) (ε : outParam Type) (F : Type → Type) where
  /-- The outcome, and what is done to reach it. -/
  answer {α : Type} : F α → Work σ (Except ε α)

export Answering (answer)

/-- An action is evaluated. -/
instance : Answering σ ε (Action σ ε) := ⟨Action.evaluate⟩

/-- A result is there already. -/
instance : Answering σ ε (Except ε) := ⟨fun x => return x⟩

/-- The failure that work ends with, if it does. -/
def Ending.failure? : Ending σ (Except ε α) → Option ε
  | .value (.error e) _ => some e
  | _ => none

/-- Wherever the work ends, it has added `es` to what `calls` lists. -/
def Work.Lists (calls : σ → List ε) (es : List ε) (w : Work σ α) : Prop :=
  ∀ n s s', (w n s).state? = some s' → calls s' = calls s ++ es

section Carriers

variable {m : Type → Type} {F : Type → Type} [Recoverable σ m ε F] [MonadLiftT m (Work σ)]

/-- Builds a carrier that goes on with what `k` makes of the value. -/
def bound (x : F α) (k : α → Work σ (F β)) : Work σ (F β) :=
  liftM (Chainable.bind (σ := σ) x k : m (F β))

/-- Builds a carrier that goes on with what `h` makes of a failure. -/
def handled (x : F α) (h : ε → Work σ (F α)) : Work σ (F α) :=
  liftM (Recoverable.tryCatch (σ := σ) x h : m (F α))

end Carriers

/-- Carriers whose operations come to what they say. -/
class LawfulRecoverable (σ : Type) (m : outParam (Type → Type)) (ε : outParam Type)
    (F : Type → Type) [Recoverable σ m ε F] [MonadLiftT m (Work σ)] [Answering σ ε F] : Prop where
  answer_ofValue {α : Type} (a : α) :
    (answer (Zippable.ofValue σ a : F α) : Work σ _) = return .ok a
  answer_throw {α : Type} (e : ε) :
    (answer (Recoverable.throw σ e : F α) : Work σ _) = return .error e
  answer_observe {α : Type} (x : F α) :
    (answer (Recoverable.observe σ x) : Work σ _) = answer x >>= fun r => return .ok r
  answer_bound {α β : Type} (x : F α) (k : α → Work σ (F β)) :
    bound x k >>= answer = answer x >>= fun
      | .ok a => k a >>= answer
      | .error e => return .error e
  answer_handled {α : Type} (x : F α) (h : ε → Work σ (F α)) :
    handled x h >>= answer = answer x >>= fun
      | .ok a => return .ok a
      | .error e => h e >>= answer

open LawfulRecoverable

instance [Tracing σ] : LawfulRecoverable σ Id ε (Action σ ε) where
  answer_ofValue _ := rfl
  answer_throw _ := rfl
  answer_observe x := x.evaluate_observe
  answer_bound x k := x.evaluate_bind k
  answer_handled x h := x.evaluate_tryCatch h

instance : LawfulRecoverable σ (Work σ) ε (Except ε) where
  answer_ofValue _ := rfl
  answer_throw _ := rfl
  answer_observe _ := rfl
  answer_bound x k := by
    cases x with
    | ok a => rfl
    | error e => rfl
  answer_handled x h := by
    cases x with
    | ok a => rfl
    | error e => rfl

/-- The laws of handlers, for all computations `x`, handlers `h` and continuations `k`:
these may have effects, fail and panic. -/
structure HandlerLaws (σ : Type) (m : Type → Type) (ε : Type) (F : Type → Type)
    [Recoverable σ m ε F] [MonadLiftT m (Work σ)] [Answering σ ε F] : Prop where
  /-- A failure that is raised goes to its handler. -/
  throw {α : Type} (e : ε) (h : ε → Work σ (F α)) :
    handled (Recoverable.throw σ e) h >>= answer = h e >>= answer
  /-- A value is left as it is, whatever the handler. -/
  ofValue {α : Type} (a : α) (h : ε → Work σ (F α)) :
    handled (Zippable.ofValue σ a) h >>= answer = (answer (Zippable.ofValue σ a : F α) : Work σ _)
  /-- To raise a failure again is not to handle it. -/
  rethrow {α : Type} (x : F α) :
    handled x (fun e => (return Recoverable.throw σ e : Work σ _)) >>= answer = answer x
  /-- The outer handler is there for the failures of the inner one. -/
  nested {α : Type} (x : F α) (h₁ h₂ : ε → Work σ (F α)) :
    (do handled (← handled x h₁) h₂) >>= answer =
      handled x (fun e => do handled (← h₁ e) h₂) >>= answer
  /-- What comes next follows the value or the handler. -/
  bind {α β : Type} (x : F α) (h : ε → Work σ (F α)) (k : α → Work σ (F β)) :
    (do bound (← handled x h) k) >>= answer =
      bound (Recoverable.observe σ x) (fun
        | .ok a => k a
        | .error e => do bound (← h e) k) >>= answer
  /-- Of the failures in a computation, its handler and what comes next, the handler is
  called with that of the computation, if it fails, and with no other. -/
  calls {α β : Type} {calls : σ → List ε} {x : F α} {h : ε → Work σ (F α)}
    {k : α → Work σ (F β)} (hx : (answer x : Work σ _).Lists calls [])
    (hh : ∀ e, (h e >>= answer).Lists calls [e]) (hk : ∀ a, (k a >>= answer).Lists calls [])
    (n : ℕ) (s s' : σ) (hs : (((do bound (← handled x h) k) >>= answer) n s).state? = some s') :
    calls s' = calls s ++ ((answer x : Work σ _) n s).failure?.toList

section Lawful

variable {m : Type → Type} {F : Type → Type} [Recoverable σ m ε F] [MonadLiftT m (Work σ)]
  [Answering σ ε F] [LawfulRecoverable σ m ε F]

/-- A handled computation and what comes next, step by step. -/
theorem answer_handled_bound (x : F α) (h : ε → Work σ (F α)) (k : α → Work σ (F β)) :
    (do bound (← handled x h) k) >>= answer = answer x >>= fun
      | .ok a => k a >>= answer
      | .error e => (h e >>= answer) >>= fun
        | .ok a => k a >>= answer
        | .error e => return .error e := by
  simp only [bind_assoc, answer_bound]
  rw [← bind_assoc, answer_handled, bind_assoc]
  refine bind_congr fun r => ?_
  cases r with
  | ok a => exact pure_bind _ _
  | error e => exact bind_assoc _ _ _

/-- A handled computation and another handler around it, step by step. -/
theorem answer_handled_handled (x : F α) (h₁ h₂ : ε → Work σ (F α)) :
    (do handled (← handled x h₁) h₂) >>= answer = answer x >>= fun
      | .ok a => return .ok a
      | .error e => (h₁ e >>= answer) >>= fun
        | .ok a => return .ok a
        | .error e => h₂ e >>= answer := by
  simp only [bind_assoc, answer_handled]
  rw [← bind_assoc, answer_handled, bind_assoc]
  refine bind_congr fun r => ?_
  cases r with
  | ok a => exact pure_bind _ _
  | error e => exact bind_assoc _ _ _

/-- A handler that only raises its failure leaves the answer as it is. -/
theorem answer_handled_rethrow (x : F α) :
    handled x (fun e => (return Recoverable.throw σ e : Work σ _)) >>= answer = answer x := by
  rw [answer_handled]
  refine Eq.trans (bind_congr fun r => ?_) (bind_pure (answer x))
  cases r with
  | ok a => rfl
  -- what is raised again is the failure that was there
  | error e => exact (pure_bind _ _).trans (answer_throw e)

/-- A handler and what comes next, as one continuation of the outcome. -/
theorem answer_observe_bound (x : F α) (h : ε → Work σ (F α)) (k : α → Work σ (F β)) :
    bound (Recoverable.observe σ x) (fun
        | .ok a => k a
        | .error e => do bound (← h e) k) >>= answer = answer x >>= fun
      | .ok a => k a >>= answer
      | .error e => (h e >>= answer) >>= fun
        | .ok a => k a >>= answer
        | .error e => return .error e := by
  rw [answer_bound, answer_observe, bind_assoc]
  refine bind_congr fun r => ?_
  cases r with
  | ok a => exact pure_bind _ _
  | error e =>
    simp only [pure_bind, bind_assoc, answer_bound]
    rfl

end Lawful

section Lists

variable {calls : σ → List ε} {es : List ε}

theorem Work.lists_pure (a : α) : (pure a : Work σ α).Lists calls [] := by
  intro n s s' hs
  obtain rfl := Option.some.inj hs
  exact (List.append_nil _).symm

/-- What comes after some work and adds nothing. -/
theorem Work.Lists.bind {w : Work σ α} {f : α → Work σ β} (hw : w.Lists calls es)
    (hf : ∀ a, (f a).Lists calls []) : (w >>= f).Lists calls es := by
  intro n s s' hs
  have hwn := hw n s
  rw [bind_run] at hs
  cases h : w n s with
  | value a s₁ =>
    rw [h] at hs hwn
    rw [hf a n s₁ s' hs, hwn s₁ rfl, List.append_nil]
  | panic p s₁ =>
    rw [h] at hs hwn
    exact hwn s' hs
  | exhausted =>
    rw [h] at hs
    cases hs

/-- A failure is listed where it is handled, after what was listed before. -/
theorem Work.Lists.of_failure {w : Work σ (Except ε α)} {f : Except ε α → Work σ β}
    (hw : w.Lists calls []) (hok : ∀ a, (f (.ok a)).Lists calls [])
    (herror : ∀ e, (f (.error e)).Lists calls [e]) {n : ℕ} {s s' : σ}
    (hs : ((w >>= f) n s).state? = some s') : calls s' = calls s ++ (w n s).failure?.toList := by
  have hwn := hw n s
  rw [bind_run] at hs
  -- only after a failure is there an entry; a panic has none either, as there `f` is not reached
  rcases h : w n s with ⟨e | a, s₁⟩ | ⟨p, s₁⟩ | _
  · rw [h] at hs hwn
    rw [herror e n s₁ s' hs, hwn s₁ rfl, List.append_nil]
    rfl
  · rw [h] at hs hwn
    rw [hok a n s₁ s' hs, hwn s₁ rfl, List.append_nil]
    rfl
  · rw [h] at hs hwn
    exact hwn s' hs
  · rw [h] at hs
    cases hs

end Lists

/-- The laws hold where operations come to what they say. -/
theorem HandlerLaws.of_lawful {m : Type → Type} {F : Type → Type} [Recoverable σ m ε F]
    [MonadLiftT m (Work σ)] [Answering σ ε F] [LawfulRecoverable σ m ε F] :
    HandlerLaws σ m ε F where
  throw e h := by
    rw [answer_handled, answer_throw]
    exact pure_bind _ _
  ofValue a h := by
    rw [answer_handled, answer_ofValue]
    exact pure_bind _ _
  rethrow := answer_handled_rethrow
  nested x h₁ h₂ := by
    rw [answer_handled_handled, answer_handled]
    refine bind_congr fun r => ?_
    cases r with
    | ok a => rfl
    | error e =>
      simp only [bind_assoc, answer_handled]
      rfl
  bind x h k := (answer_handled_bound x h k).trans (answer_observe_bound x h k).symm
  calls hx hh hk n s s' hs := by
    rw [answer_handled_bound] at hs
    refine Work.Lists.of_failure hx hk (fun e => (hh e).bind fun r => ?_) hs
    -- a failure of the handler is not for the handler
    cases r with
    | ok a => exact hk a
    | error e' => exact Work.lists_pure _

/-- The laws of handlers for actions that are run. -/
structure RunLaws (σ ε : Type) [Tracing σ] : Prop where
  throw {α : Type} (e : ε) (h : ε → Work σ (Action σ ε α)) :
    ((Action.failed e).tryCatch h).run = (Action.defer (h e)).run
  ofValue {α : Type} (a : α) (h : ε → Work σ (Action σ ε α)) :
    ((Action.pure a).tryCatch h).run = (Action.pure a : Action σ ε α).run
  rethrow {α : Type} (x : Action σ ε α) : (x.tryCatch fun e => return .failed e).run = x.run
  nested {α : Type} (x : Action σ ε α) (h₁ h₂ : ε → Work σ (Action σ ε α)) :
    ((x.tryCatch h₁).tryCatch h₂).run = (x.tryCatch fun e => return (← h₁ e).tryCatch h₂).run
  bind {α β : Type} (x : Action σ ε α) (h : ε → Work σ (Action σ ε α))
    (k : α → Work σ (Action σ ε β)) :
    ((x.tryCatch h).bind k).run =
      (x.observe.bind fun
        | .ok a => k a
        | .error e => return (← h e).bind k).run

/-- A run is told by what is evaluated. -/
theorem Action.run_eq_of_evaluate [Tracing σ] {a b : Action σ ε α} (h : a.evaluate = b.evaluate) :
    a.run = b.run := by
  simp only [run, evaluateNoted, h]

/-- The laws for what is evaluated are laws for what is run. -/
theorem RunLaws.of_laws [Tracing σ] (h : HandlerLaws σ Id ε (Action σ ε)) : RunLaws σ ε where
  throw e k := Action.run_eq_of_evaluate ((h.throw e k).trans (Action.evaluate_defer _).symm)
  ofValue a k := Action.run_eq_of_evaluate (h.ofValue a k)
  rethrow x := Action.run_eq_of_evaluate (h.rethrow x)
  nested x h₁ h₂ := Action.run_eq_of_evaluate (h.nested x h₁ h₂)
  bind x k l := Action.run_eq_of_evaluate (h.bind x k l)

/-- **Handlers.** Actions, by what they do when they are evaluated and so when they are run, and
results obey the laws of handlers: those of a monad on the failures, and those that say where a
handler ends, so that it is called once with a failure of what it stands around, and not with its
own failure or with one of what comes next. -/
theorem handlers_scoped [Tracing σ] :
    HandlerLaws σ Id ε (Action σ ε) ∧ RunLaws σ ε ∧ HandlerLaws σ (Work σ) ε (Except ε) :=
  ⟨.of_lawful, .of_laws .of_lawful, .of_lawful⟩

/-- A host that lists the failures its handler was called with. -/
abbrev Complaints : Type := List String × List Trace

/-- Lists the failure, and makes a value of it. -/
def listing (e : String) : Work Complaints (Action Complaints String ℕ) := do
  Work.update fun s => (s.1 ++ [e], s.2)
  return .pure e.length

/-- A failure that is handled, and then another one. -/
def twoFailures : Work Complaints (Action Complaints String ℕ) := do
  bound (← handled (.failed "no") listing) fun n => return .failed (toString n)

/-- The handler is called with the first of two failures only. -/
theorem handlers_scoped_twoFailures :
    (∀ e, (listing e >>= answer).Lists Prod.fst [e]) ∧
    (twoFailures >>= answer) 1 (["before"], []) = .value (.error "2") (["before", "no"], []) ∧
    ∀ s', ((twoFailures >>= answer) 1 (["before"], [])).state? = some s' →
      s'.1 = ["before"] ++ ["no"] := by
  have hlisting : ∀ e, (listing e >>= answer).Lists Prod.fst [e] := by
    intro e n s s' hs
    cases hs
    rfl
  refine ⟨hlisting, rfl, fun s' hs => ?_⟩
  exact handlers_scoped.1.calls (Work.lists_pure _) hlisting (fun n => Work.lists_pure _) _ _ s' hs

end Deferral
