import Deferral.Action.Combinators
import Deferral.Action.Run
import Deferral.Proofs.Course

/-!
# Recipes

A `Recipe` says how an action is put together, by any nesting of the ways of
building actions. The functions that these are given are host code, a `Routine`:
work of any kind, runs of other actions, panics that the code catches by itself,
one after another. A function that makes an action carries out a routine and goes
on with the recipe that the routine has decided on.

* `Recipe.assemble` builds the action, with the combinators of the library.
* `Recipe.course` says in direct style what the action does, without building it:
  which parts are carried out, in which order, and which of them are skipped
  after a failure or a panic.

That evaluating the one gives the other is in `Deferral.Proofs.Adequacy`.
-/

namespace Deferral

mutual

/-- How an action is put together. Where a function makes an action of a value,
`c` is what it does and `k` the recipe of what it has made. -/
inductive Recipe (σ : Type) : Type → Type → Type 1 where
  | pure {ε α : Type} (a : α) : Recipe σ ε α
  | failed {ε α : Type} (e : ε) : Recipe σ ε α
  | ofExcept {ε α : Type} (r : Except ε α) : Recipe σ ε α
  | ofWork {ε α : Type} (c : Routine σ α) : Recipe σ ε α
  | ofFallible {ε α : Type} (c : Routine σ (Except ε α)) : Recipe σ ε α
  | defer {ε α ι : Type} (c : Routine σ ι) (k : ι → Recipe σ ε α) : Recipe σ ε α
  | map {ε α β : Type} (d : Recipe σ ε α) (f : α → Routine σ β) : Recipe σ ε β
  | bind {ε α β ι : Type} (d : Recipe σ ε α) (c : α → Routine σ ι) (k : ι → Recipe σ ε β) :
      Recipe σ ε β
  | andThen {ε α β ι : Type} (d : Recipe σ ε α) (c : α → Routine σ ι) (k : ι → Recipe σ ε β) :
      Recipe σ ε β
  | followedBy {ε α β : Type} (d : Recipe σ ε α) (d' : Recipe σ ε β) : Recipe σ ε β
  | zipWith {ε α β γ : Type} (d : Recipe σ ε α) (d' : Recipe σ ε β) (f : α → β → Routine σ γ) :
      Recipe σ ε γ
  | zip {ε α β : Type} (d : Recipe σ ε α) (d' : Recipe σ ε β) : Recipe σ ε (α × β)
  /-- The values of `d` are functions, called by `call`. -/
  | seq {ε φ α β : Type} (call : φ → α → Routine σ β) (d : Recipe σ ε φ) (d' : Recipe σ ε α) :
      Recipe σ ε β
  | observe {ε α : Type} (d : Recipe σ ε α) : Recipe σ ε (Except ε α)
  | tryCatch {ε α ι : Type} (d : Recipe σ ε α) (c : ε → Routine σ ι) (k : ι → Recipe σ ε α) :
      Recipe σ ε α
  | recover {ε α : Type} (d : Recipe σ ε α) (h : ε → Routine σ α) : Recipe σ ε α
  | mapError {ε ε' α : Type} (d : Recipe σ ε α) (f : ε → Routine σ ε') : Recipe σ ε' α
  | containPanic {ε α : Type} (place : OfFault ε) (d : Recipe σ ε α) : Recipe σ ε α
  | loop {ε τ β ι : Type} (seed : τ) (c : τ → Routine σ ι) (k : ι → Recipe σ ε (Either τ β)) :
      Recipe σ ε β

/-- What a function of the host does. -/
inductive Routine (σ : Type) : Type → Type 1 where
  /-- Work of any kind. -/
  | work {α : Type} (w : Work σ α) (steady : w.Steady) : Routine σ α
  | bind {α β : Type} (c : Routine σ α) (k : α → Routine σ β) : Routine σ β
  /-- Catches a panic of `c`. -/
  | caught {α : Type} (c : Routine σ α) : Routine σ (Checked α)
  /-- Runs an action. -/
  | run {ε α : Type} (d : Recipe σ ε α) : Routine σ (Except ε α)

end

variable {σ : Type} [Tracing σ]

mutual

/-- Builds the action. -/
def Recipe.assemble {ε α : Type} : Recipe σ ε α → Action σ ε α
  | .pure a => .pure a
  | .failed e => .failed e
  | .ofExcept r => .ofExcept r
  | .ofWork c => .ofWork c.toWork
  | .ofFallible c => .ofFallible c.toWork
  | .defer c k => .defer do return (k (← c.toWork)).assemble
  | .map d f => d.assemble.map fun a => (f a).toWork
  | .bind d c k => d.assemble.bind fun a => do return (k (← (c a).toWork)).assemble
  | .andThen d c k => d.assemble.andThen fun a => do return (k (← (c a).toWork)).assemble
  | .followedBy d d' => d.assemble.followedBy d'.assemble
  | .zipWith d d' f => d.assemble.zipWith d'.assemble fun a b => (f a b).toWork
  | .zip d d' => d.assemble.zip d'.assemble
  | .seq call d d' => (d.assemble.map fun f => return fun a => (call f a).toWork).seq d'.assemble
  | .observe d => d.assemble.observe
  | .tryCatch d c k => d.assemble.tryCatch fun e => do return (k (← (c e).toWork)).assemble
  | .recover d h => d.assemble.recover fun e => (h e).toWork
  | .mapError d f => d.assemble.mapError fun e => (f e).toWork
  | .containPanic _ d => d.assemble.containPanic
  | .loop seed c k => .loop seed fun t => do return (k (← (c t).toWork)).assemble
termination_by structural d => d

/-- The work of a routine. -/
def Routine.toWork {α : Type} : Routine σ α → Work σ α
  | .work w _ => w
  | .bind c k => do (k (← c.toWork)).toWork
  | .caught c => c.toWork.caught
  | .run d => d.assemble.run
termination_by structural c => c

end

/-- One round of a loop in direct style: a failure ends it as a right value does. -/
def Course.exceptRound {τ ε α : Type} (c : Course σ (Except ε (Either τ α))) :
    Course σ (Either τ (Except ε α)) := do
  match ← c with
  | .ok (.left t) => return .left t
  | .ok (.right a) => return .right (.ok a)
  | .error e => return .right (.error e)

/-- The note that a run has failed. -/
def Course.noteFailure {ε α : Type} : Except ε α → Course σ Unit
  | .ok _ => return ()
  | .error _ => Course.note (.message .debug "effect evaluation failed" [])

mutual

/-- What the action does, in direct style. -/
def Recipe.course {ε α : Type} : Recipe σ ε α → Course σ (Except ε α)
  | .pure a => return .ok a
  | .failed e => return .error e
  | .ofExcept r => return r
  | .ofWork c => return .ok (← c.course)
  | .ofFallible c => c.course
  | .defer c k => do (k (← c.course)).course
  | .map d f => do
    match ← d.course with
    | .ok a => return .ok (← (f a).course)
    | .error e => return .error e
  | .bind d c k | .andThen d c k => do
    match ← d.course with
    | .ok a => (k (← (c a).course)).course
    | .error e => return .error e
  | .followedBy d d' => do
    match ← d.course with
    | .ok _ => d'.course
    | .error e => return .error e
  | .zipWith d d' f => do
    match ← d.course with
    | .error e => return .error e
    | .ok a =>
      match ← d'.course with
      | .error e => return .error e
      | .ok b => return .ok (← (f a b).course)
  | .zip d d' => do
    match ← d.course with
    | .error e => return .error e
    | .ok a =>
      match ← d'.course with
      | .error e => return .error e
      | .ok b => return .ok (a, b)
  | .seq call d d' => do
    match ← d.course with
    | .error e => return .error e
    | .ok f =>
      match ← d'.course with
      | .error e => return .error e
      | .ok a => return .ok (← (call f a).course)
  | .observe d => return .ok (← d.course)
  | .tryCatch d c k => do
    match ← d.course with
    | .ok a => return .ok a
    | .error e => (k (← (c e).course)).course
  | .recover d h => do
    match ← d.course with
    | .ok a => return .ok a
    | .error e => return .ok (← (h e).course)
  | .mapError d f => do
    match ← d.course with
    | .ok a => return .ok a
    | .error e => return .error (← (f e).course)
  | .containPanic _ d => do
    match ← d.course.caught with
    | .ok r => return r
    | .error p =>
      Course.note (Action.panicCaught p)
      return .error (ofFault (.panicked p.message))
  | .loop seed c k => do
    let (outcome, rounds) ←
      Course.iterate (fun t => Course.exceptRound do (k (← (c t).course)).course) seed
    Course.note (Action.loopEnded outcome rounds)
    return outcome
termination_by structural d => d

/-- What a function of the host does, in direct style. A run leaves its span also
when it panics. -/
def Routine.course {α : Type} : Routine σ α → Course σ α
  | .work w _ => w.limit
  | .bind c k => do (k (← c.course)).course
  | .caught c => c.course.caught
  | .run d => do
    Course.note (.span .trace "io.run")
    Course.note .enter
    match ← d.course.caught with
    | .ok outcome =>
      Course.noteFailure outcome
      Course.note .exit
      return outcome
    | .error p =>
      Course.note .exit
      throw p
termination_by structural c => c

end

end Deferral
