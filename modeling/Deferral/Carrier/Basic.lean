import Deferral.Either.Order
import Deferral.Work

/-!
# Carriers

A carrier `F` holds the outcome of a computation: an optional value, a result, an action. The
classes here are what code generic over the carrier may use, each class with more operations than
the one it extends. Host functions are given to the operations as work on `σ`.

An operation gives its result in `m`: carriers that put work off need none to build a result
(`m` is `Id`), carriers that hold finished outcomes call the functions at once (`m` is `Work σ`).

Operations that follow from others have a default.
-/

namespace Deferral

/-- Carriers whose value can be changed. -/
class Mappable (σ : Type) (m : outParam (Type → Type)) (F : Type → Type) where
  /-- Applies a function to the value. -/
  map {α β : Type} : F α → (α → Work σ β) → m (F β)
  /-- Puts another value in place of the value. -/
  mapConst {α β : Type} : F α → β → m (F β) := fun x b => map x fun _ => pure b
  /-- Forgets the value. -/
  discard {α : Type} : F α → m (F Unit) := fun x => mapConst x ()

/-- Carriers whose values can be combined. -/
class Zippable (σ : Type) (m : outParam (Type → Type)) (F : Type → Type) extends
    Mappable σ m F where
  /-- Holds a value. -/
  ofValue {α : Type} : α → F α
  /-- Combines the values of two carriers, left before right. -/
  zipWith {α β γ : Type} : F α → F β → (α → β → Work σ γ) → m (F γ)
  /-- Pairs the values. -/
  zip {α β : Type} : F α → F β → m (F (α × β)) := fun x y => zipWith x y fun a b => pure (a, b)
  /-- Keeps the left value. -/
  seqLeft {α β : Type} : F α → F β → m (F α) := fun x y => zipWith x y fun a _ => pure a
  /-- Keeps the right value. -/
  seqRight {α β : Type} : F α → F β → m (F β) := fun x y => zipWith x y fun _ b => pure b
  /-- Applies the left value to the right one. -/
  seq {α β : Type} : F (α → Work σ β) → F α → m (F β)

/-- Carriers whose value can decide what comes next. -/
class Chainable (σ : Type) (m : outParam (Type → Type)) (F : Type → Type) extends
    Zippable σ m F where
  /-- Goes on with what a function makes of the value. -/
  bind {α β : Type} : F α → (α → Work σ (F β)) → m (F β)
  /-- Another name of `bind`. -/
  andThen {α β : Type} : F α → (α → Work σ (F β)) → m (F β) := fun x k => bind x k
  /-- Goes on with the right operand, whatever the left value. -/
  followedBy {α β : Type} : F α → F β → m (F β) := fun x y => bind x fun _ => pure y
  /-- Repeats a step until it gives a right value. -/
  loop {τ β : Type} : τ → (τ → Work σ (F (Either τ β))) → m (F β)

/-- Carriers that can fail with an `ε` and go on after a failure. -/
class Recoverable (σ : Type) (m : outParam (Type → Type)) (ε : outParam Type)
    (F : Type → Type) extends Chainable σ m F where
  /-- Fails. -/
  throw {α : Type} : ε → F α
  /-- Goes on with what a function makes of a failure. -/
  tryCatch {α : Type} : F α → (ε → Work σ (F α)) → m (F α)
  /-- Makes the outcome a value. -/
  observe {α : Type} : F α → F (Except ε α)
  /-- Holds an outcome that is known already. -/
  ofExcept {α : Type} : Except ε α → F α := fun
    | .ok a => ofValue a
    | .error e => throw e
  /-- Makes a value of a failure. -/
  recover {α : Type} : F α → (ε → Work σ α) → m (F α) := fun x h =>
    tryCatch x fun e => ofValue <$> h e
  /-- Puts another carrier in place of a failed one. -/
  orElse {α : Type} : F α → F α → m (F α) := fun x y => tryCatch x fun _ => pure y
  /-- Changes a failure. -/
  adapt {α : Type} : F α → (ε → Work σ ε) → m (F α) := fun x f =>
    tryCatch x fun e => throw <$> f e

end Deferral
