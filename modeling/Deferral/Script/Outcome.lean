import Deferral.Carrier.Instances
import Deferral.Script.Eval

/-!
# Scripts that build outcomes

An expression can build an optional value or a result in place of an action. These carriers hold
finished outcomes, so functions are called while the expression is built, and there is nothing
left to run. Only the generic form of an operation has a meaning here; an optional value cannot
fail, and a result cannot be absent.
-/

namespace Deferral.Script

/-- What expressions build as an outcome is held as it is. -/
abbrev Prompt (F : Type → Type) : Type := Runner (F Value) (F Value)

section Chain

variable {F : Type → Type} [Chainable (World (F Value)) (Work (World (F Value))) F]

/-- The generic operations on two outcomes. -/
def joinOutcomes (r : Prompt F) (x y : F Value) : Joining → Work (World (F Value)) (F Value)
  | .zip .generic => do
    let p ← Zippable.zip (σ := World (F Value)) x y
    Mappable.map (σ := World (F Value)) p fun q => return .pair q.1 q.2
  | .seqLeft => Zippable.seqLeft (σ := World (F Value)) x y
  | .seqRight => Zippable.seqRight (σ := World (F Value)) x y
  | .followedBy .generic => Chainable.followedBy (σ := World (F Value)) x y
  | .seq .generic => do
    let f ← Mappable.map (σ := World (F Value)) x fun g => return r.apply g
    Zippable.seq f y
  | _ => malformed

/-- The generic combination of two outcomes by a function. -/
def zipOutcomes (r : Prompt F) (x y : F Value) (f : Closure₂ Term) :
    Form → Work (World (F Value)) (F Value)
  | .generic => Zippable.zipWith x y (r.call₂ f)
  | .direct => malformed

/-- The generic operations that go on with what a function builds of a value. -/
def chainOutcome (r : Prompt F) (x : F Value) (k : Closure Expr) :
    Chaining → Work (World (F Value)) (F Value)
  | .bind .generic => Chainable.bind x (r.build k)
  | .andThen .generic => Chainable.andThen x (r.build k)
  | _ => malformed

/-- The generic loop over outcomes. -/
def loopOutcomes (r : Prompt F) (seed : Value) (step : Closure Expr) :
    Form → Work (World (F Value)) (F Value)
  | .generic => Chainable.loop seed fun v => do
    let x ← r.build step v
    Mappable.map (σ := World (F Value)) x sideOf
  | .direct => malformed

/-- The value of an outcome is forgotten. -/
def emptyOutcome (x : F Value) : Work (World (F Value)) (F Value) := do
  let u ← Mappable.discard (σ := World (F Value)) x
  Mappable.map (σ := World (F Value)) u fun _ => return .unit

end Chain

/-- Where an expression builds an optional value. -/
instance : Context (Option Value) (Option Value) where
  ready _ x := x
  perform x := return .ofOption x
  absent := return none
  getLine := malformed
  hold
    | .value .generic, v => return Zippable.ofValue (World (Option Value)) v
    | _, _ => malformed
  delay _ _ _ := malformed
  defer _ _ := malformed
  map
    | r, .map .generic, x, f => Mappable.map x (r.call f)
    | _, _, _, _ => malformed
  mapConst x v := Mappable.mapConst (σ := World (Option Value)) x v
  wrap
    | .discard, x => emptyOutcome x
    | _, _ => malformed
  chain r op x k := chainOutcome r x k op
  join r op x y := joinOutcomes r x y op
  zipWith r form x y f := zipOutcomes r x y f form
  loop r form seed step := loopOutcomes r seed step form

/-- A result of scripts. -/
abbrev Result : Type := Except Value Value

/-- The operations on the failure of a result. -/
def chainResult (r : Runner Result Result) (x : Result) (k : Closure Expr) :
    Chaining → Work (World Result) Result
  | .tryCatch .generic => Recoverable.tryCatch x (r.build k)
  | op => chainOutcome r x k op

/-- The operations on two results. -/
def joinResults (r : Runner Result Result) (x y : Result) : Joining → Work (World Result) Result
  | .orElse => Recoverable.orElse (σ := World Result) x y
  | op => joinOutcomes r x y op

/-- The result of an operation that holds a value. -/
def holdResult : Holding → Value → Work (World Result) Result
  | .value .generic, v => return Zippable.ofValue (World Result) v
  | .failure .generic, v => return Recoverable.throw (World Result) v
  | .outcome .generic, v => Recoverable.ofExcept (World Result) <$> outcomeOf v
  | _, _ => malformed

/-- The operations that change a result by a function. -/
def mapResult (r : Runner Result Result) (x : Result) (f : Closure Term) :
    Mapping → Work (World Result) Result
  | .map .generic => Mappable.map x (r.call f)
  | .recover .generic => Recoverable.recover x (r.call f)
  | .adapt => Recoverable.adapt x (r.call f)
  | _ => malformed

/-- The operations on a result alone. -/
def wrapResult (x : Result) : Wrapping → Work (World Result) Result
  | .discard => emptyOutcome x
  | .observe .generic =>
    Mappable.map (Recoverable.observe (World Result) x) fun o => return .ofExcept o
  | _ => malformed

/-- Where an expression builds a result. -/
instance : Context Result Result where
  ready _ x := x
  perform x := return .ofExcept x
  absent := malformed
  getLine := malformed
  hold := holdResult
  delay _ _ _ := malformed
  defer _ _ := malformed
  map r op x f := mapResult r x f op
  mapConst x v := Mappable.mapConst (σ := World Result) x v
  wrap op x := wrapResult x op
  chain r op x k := chainResult r x k op
  join r op x y := joinResults r x y op
  zipWith r form x y f := zipOutcomes r x y f form
  loop r form seed step := loopOutcomes r seed step form

end Deferral.Script
