import Deferral.Carrier.Instances
import Mathlib.Logic.Relation

/-!
# Programs over any carrier

A `Program` is an expression over the operations of the carrier classes, nested to
any depth, whose functions are pure. Functions that give a carrier give a program
here, of which they build the outcome when they are called.

* `Program.build` builds a program over a carrier that can fail and recover, with
  the operations of its classes and nothing else.
* `Program.buildOption` does so over optional values, for programs that do not look
  at failures; to fail is to have no value.
* `Program.Settles` says what a program amounts to, without any carrier, and that
  the loops in it end: all those that are met when both operands of an operation
  are worked out and a function is called only with the value or failure that it
  waits for.

That the carriers agree is in `Deferral.Proofs.Agreement`.
-/

namespace Deferral

/-- An expression over the operations of carriers that fail with an `ε`. Where
`handling` is false it fails only by `throw`, and does not look at failures. -/
inductive Program (ε : Type) (handling : Bool) : Type → Type 1 where
  | ofValue {α : Type} (a : α) : Program ε handling α
  | throw {α : Type} (e : ε) : Program ε handling α
  | map {α β : Type} (p : Program ε handling α) (f : α → β) : Program ε handling β
  | mapConst {α β : Type} (p : Program ε handling α) (b : β) : Program ε handling β
  | discard {α : Type} (p : Program ε handling α) : Program ε handling Unit
  | zipWith {α β γ : Type} (p : Program ε handling α) (q : Program ε handling β)
      (f : α → β → γ) : Program ε handling γ
  | zip {α β : Type} (p : Program ε handling α) (q : Program ε handling β) :
      Program ε handling (α × β)
  | seqLeft {α β : Type} (p : Program ε handling α) (q : Program ε handling β) :
      Program ε handling α
  | seqRight {α β : Type} (p : Program ε handling α) (q : Program ε handling β) :
      Program ε handling β
  | seq {α β : Type} (p : Program ε handling (α → β)) (q : Program ε handling α) :
      Program ε handling β
  | bind {α β : Type} (p : Program ε handling α) (k : α → Program ε handling β) :
      Program ε handling β
  | andThen {α β : Type} (p : Program ε handling α) (k : α → Program ε handling β) :
      Program ε handling β
  | followedBy {α β : Type} (p : Program ε handling α) (q : Program ε handling β) :
      Program ε handling β
  | loop {τ β : Type} (seed : τ) (step : τ → Program ε handling (Either τ β)) :
      Program ε handling β
  | ofExcept {α : Type} (allowed : handling = true) (r : Except ε α) : Program ε handling α
  | observe {α : Type} (allowed : handling = true) (p : Program ε handling α) :
      Program ε handling (Except ε α)
  | tryCatch {α : Type} (allowed : handling = true) (p : Program ε handling α)
      (k : ε → Program ε handling α) : Program ε handling α
  | recover {α : Type} (allowed : handling = true) (p : Program ε handling α) (f : ε → α) :
      Program ε handling α
  | orElse {α : Type} (allowed : handling = true) (p q : Program ε handling α) :
      Program ε handling α
  | adapt {α : Type} (allowed : handling = true) (p : Program ε handling α) (f : ε → ε) :
      Program ε handling α

namespace Program

/-- A pure function, as a function of the host. -/
def host (σ : Type) {α β : Type} (f : α → β) (a : α) : Work σ β := return f a

/-- Builds the program over a carrier. Functions that are values are made functions
of the host before they are applied. -/
def build (σ : Type) {m : Type → Type} {ε : Type} (F : Type → Type) [Recoverable σ m ε F] [Monad m]
    [MonadLiftT m (Work σ)] {handling : Bool} {α : Type} : Program ε handling α → m (F α)
  | .ofValue a => return Zippable.ofValue σ a
  | .throw e => return Recoverable.throw σ e
  | .map p f => do Mappable.map (σ := σ) (← p.build σ F) (host σ f)
  | .mapConst p b => do Mappable.mapConst (σ := σ) (← p.build σ F) b
  | .discard p => do Mappable.discard (σ := σ) (← p.build σ F)
  | .zipWith p q f => do
    Zippable.zipWith (σ := σ) (← p.build σ F) (← q.build σ F) fun a => host σ (f a)
  | .zip p q => do Zippable.zip (σ := σ) (← p.build σ F) (← q.build σ F)
  | .seqLeft p q => do Zippable.seqLeft (σ := σ) (← p.build σ F) (← q.build σ F)
  | .seqRight p q => do Zippable.seqRight (σ := σ) (← p.build σ F) (← q.build σ F)
  | .seq p q => do
    let f ← Mappable.map (σ := σ) (← p.build σ F) fun f => return host σ f
    Zippable.seq (σ := σ) f (← q.build σ F)
  | .bind p k => do Chainable.bind (σ := σ) (← p.build σ F) fun a => liftM ((k a).build σ F)
  | .andThen p k => do Chainable.andThen (σ := σ) (← p.build σ F) fun a => liftM ((k a).build σ F)
  | .followedBy p q => do Chainable.followedBy (σ := σ) (← p.build σ F) (← q.build σ F)
  | .loop seed step => Chainable.loop (σ := σ) seed fun t => liftM ((step t).build σ F)
  | .ofExcept _ r => return Recoverable.ofExcept σ r
  | .observe _ p => return Recoverable.observe σ (← p.build σ F)
  | .tryCatch _ p k => do
    Recoverable.tryCatch (σ := σ) (← p.build σ F) fun e => liftM ((k e).build σ F)
  | .recover _ p f => do Recoverable.recover (σ := σ) (← p.build σ F) (host σ f)
  | .orElse _ p q => do Recoverable.orElse (σ := σ) (← p.build σ F) (← q.build σ F)
  | .adapt _ p f => do Recoverable.adapt (σ := σ) (← p.build σ F) (host σ f)
termination_by structural p => p

/-- Builds the program as an optional value. -/
def buildOption (σ : Type) {α : Type} : Program Unit false α → Work σ (Option α)
  | .ofValue a => return Zippable.ofValue σ a
  | .throw () => return none
  | .map p f => do Mappable.map (← p.buildOption σ) (host σ f)
  | .mapConst p b => do Mappable.mapConst (σ := σ) (← p.buildOption σ) b
  | .discard p => do Mappable.discard (σ := σ) (← p.buildOption σ)
  | .zipWith p q f => do
    Zippable.zipWith (← p.buildOption σ) (← q.buildOption σ) fun a => host σ (f a)
  | .zip p q => do Zippable.zip (σ := σ) (← p.buildOption σ) (← q.buildOption σ)
  | .seqLeft p q => do Zippable.seqLeft (σ := σ) (← p.buildOption σ) (← q.buildOption σ)
  | .seqRight p q => do Zippable.seqRight (σ := σ) (← p.buildOption σ) (← q.buildOption σ)
  | .seq p q => do
    let f ← Mappable.map (← p.buildOption σ) fun f => return host σ f
    Zippable.seq f (← q.buildOption σ)
  | .bind p k => do Chainable.bind (← p.buildOption σ) fun a => (k a).buildOption σ
  | .andThen p k => do Chainable.andThen (← p.buildOption σ) fun a => (k a).buildOption σ
  | .followedBy p q => do Chainable.followedBy (σ := σ) (← p.buildOption σ) (← q.buildOption σ)
  | .loop seed step => Chainable.loop seed fun t => (step t).buildOption σ
termination_by structural p => p

/-- The program amounts to the outcome `r`, and all loops that are met end. -/
def Settles {ε : Type} {handling : Bool} {α : Type} : Program ε handling α → Except ε α → Prop
  | .ofValue a, r => r = .ok a
  | .throw e, r => r = .error e
  | .map p f, r => ∃ x, p.Settles x ∧ r = f <$> x
  | .mapConst p b, r => ∃ x, p.Settles x ∧ r = Function.const _ b <$> x
  | .discard p, r => ∃ x, p.Settles x ∧ r = Function.const _ () <$> x
  | .zipWith p q f, r => ∃ x y, p.Settles x ∧ q.Settles y ∧ r = f <$> x <*> y
  | .zip p q, r => ∃ x y, p.Settles x ∧ q.Settles y ∧ r = Prod.mk <$> x <*> y
  | .seqLeft p q, r => ∃ x y, p.Settles x ∧ q.Settles y ∧ r = x <* y
  | .seqRight p q, r => ∃ x y, p.Settles x ∧ q.Settles y ∧ r = x *> y
  | .seq p q, r => ∃ x y, p.Settles x ∧ q.Settles y ∧ r = x <*> y
  | .bind p k, r | .andThen p k, r =>
    (∃ a, p.Settles (.ok a) ∧ (k a).Settles r) ∨ ∃ e, p.Settles (.error e) ∧ r = .error e
  | .followedBy p q, r => ∃ x y, p.Settles x ∧ q.Settles y ∧ r = x *> y
  | .loop seed step, r =>
    ∃ t, Relation.ReflTransGen (fun t t' => (step t).Settles (.ok (.left t'))) seed t ∧
      ((∃ b, (step t).Settles (.ok (.right b)) ∧ r = .ok b) ∨
        ∃ e, (step t).Settles (.error e) ∧ r = .error e)
  | .ofExcept _ x, r => r = x
  | .observe _ p, r => ∃ x, p.Settles x ∧ r = .ok x
  | .tryCatch _ p k, r =>
    (∃ a, p.Settles (.ok a) ∧ r = .ok a) ∨ ∃ e, p.Settles (.error e) ∧ (k e).Settles r
  | .recover _ p f, r => ∃ x, p.Settles x ∧ r = x.tryCatch fun e => .ok (f e)
  | .orElse _ p q, r => ∃ x y, p.Settles x ∧ q.Settles y ∧ r = x.tryCatch fun _ => y
  | .adapt _ p f, r => ∃ x, p.Settles x ∧ r = x.mapError f
termination_by structural p => p

end Program

end Deferral
