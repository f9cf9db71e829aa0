import Deferral.Action.Combinators
import Deferral.Carrier.Basic

/-!
# Optional values, results and actions as carriers

`Option` and `Except ε` hold outcomes that are there already, so their operations call the functions
they are given at once. Of two failures the left one is kept.

The operations of the carrier classes on actions are the combinators of the same name; where there
is none, the default of the class stands. So generic code may build another action than a direct
call, with the same behaviour.
-/

namespace Deferral

variable {σ ε : Type}

/-! ## Finished outcomes -/

instance : Mappable σ (Work σ) Option where
  map
    | some a, f => some <$> f a
    | none, _ => return none

instance : Zippable σ (Work σ) Option where
  ofValue := some
  zipWith
    | some a, some b, f => some <$> f a b
    | _, _, _ => return none
  seq
    | some f, some a => some <$> f a
    | _, _ => return none

/-- One round of a loop over optional values: no value ends it. -/
def optionRound {τ β : Type} (step : τ → Work σ (Option (Either τ β))) (t : τ) :
    Work σ (Either τ (Option β)) := do
  match ← step t with
  | some (.left t') => return .left t'
  | some (.right b) => return .right (some b)
  | none => return .right none

instance : Chainable σ (Work σ) Option where
  bind
    | some a, k => k a
    | none, _ => return none
  loop seed step := Prod.fst <$> Work.iterate (optionRound step) seed

instance : Mappable σ (Work σ) (Except ε) where
  map
    | .ok a, f => Except.ok <$> f a
    | .error e, _ => return .error e

instance : Zippable σ (Work σ) (Except ε) where
  ofValue := .ok
  zipWith
    | .ok a, .ok b, f => Except.ok <$> f a b
    | .error e, _, _ => return .error e
    | .ok _, .error e, _ => return .error e
  seq
    | .ok f, .ok a => Except.ok <$> f a
    | .error e, _ => return .error e
    | .ok _, .error e => return .error e

instance : Chainable σ (Work σ) (Except ε) where
  bind
    | .ok a, k => k a
    | .error e, _ => return .error e
  loop seed step := Prod.fst <$> Work.iterateExcept step seed

instance : Recoverable σ (Work σ) ε (Except ε) where
  throw := .error
  tryCatch
    | .ok a, _ => return .ok a
    | .error e, h => h e
  observe := .ok

/-! ## Actions -/

section Actions

variable [Tracing σ]

instance : Mappable σ Id (Action σ ε) where
  map := Action.map

instance : Zippable σ Id (Action σ ε) where
  ofValue := .pure
  zipWith := Action.zipWith
  seq := Action.seq

instance : Chainable σ Id (Action σ ε) where
  bind := Action.bind
  loop := Action.loop

instance : Recoverable σ Id ε (Action σ ε) where
  throw := .failed
  tryCatch := Action.tryCatch
  observe := Action.observe

end Actions

end Deferral
