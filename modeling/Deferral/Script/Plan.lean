import Deferral.Action.Combinators
import Deferral.Action.Run
import Deferral.Carrier.Instances
import Deferral.Script.Eval

/-!
# Plans

A `Plan` is what an expression builds where it builds an action: the operation, the plans and
values it is given, and the functions it is given as code. `Plan.assemble` makes the action. A
plan holds no work, so worlds can keep plans in their slots and still be what the work of the
actions changes.

Operations whose result is no value of scripts are followed by a `map` that makes it one, and values
that are applied, or decide a loop, are first read by a `map`.
-/

namespace Deferral.Script

/-- What an expression builds where it builds an action. -/
inductive Plan where
  | value (form : Form) (v : Value)
  | failure (form : Form) (e : Value)
  | outcome (form : Form) (r : Except Value Value)
  | putLine (line : String)
  | getLine
  | sleep
  | delay (op : Delaying) (env : Env) (t : Term)
  | defer (env : Env) (e : Expr)
  | map (op : Mapping) (p : Plan) (f : Closure Term)
  | mapConst (p : Plan) (v : Value)
  | wrap (op : Wrapping) (p : Plan)
  | chain (op : Chaining) (p : Plan) (k : Closure Expr)
  | join (op : Joining) (p q : Plan)
  | zipWith (form : Form) (p q : Plan) (f : Closure₂ Term)
  | loop (form : Form) (seed : Value) (step : Closure Expr)

/-- The state of the host whose actions are written as scripts. -/
abbrev Host : Type := World Plan

/-- An action of scripts. -/
abbrev Task : Type := Action Host Value Value

/-- The outcome of an action, as a value of scripts. -/
def Task.observed (a : Action Host Value (Except Value Value)) : Task :=
  a.map fun r => return .ofExcept r

/-- A pair that an action gives, as a value of scripts. -/
def Task.paired (a : Action Host Value (Value × Value)) : Task :=
  a.map fun r => return .pair r.1 r.2

/-- What an action gives that gives nothing, as a value of scripts. -/
def Task.emptied (a : Action Host Value Unit) : Task := a.map fun _ => return .unit

/-- An action that gives functions. -/
def Task.functions (r : Runner Plan Task) (a : Task) :
    Action Host Value (Value → Work Host Value) := a.map fun g => return r.apply g

/-- An action that decides a loop. -/
def Task.sided (a : Task) : Action Host Value (Either Value Value) := a.map sideOf

namespace Plan

/-- The action that puts off a term. -/
def assembleDelay (r : Runner Plan Task) (env : Env) (t : Term) : Delaying → Task
  | .work => .ofWork (r.term env t)
  | .fallible => .ofFallible (r.term env t >>= outcomeOf)

/-- The action of an operation that changes what `a` gives or how it fails. -/
def assembleMap (r : Runner Plan Task) (a : Task) (f : Closure Term) : Mapping → Task
  | .map .direct => a.map (r.call f)
  | .map .generic => Mappable.map (σ := Host) a (r.call f)
  | .recover .direct => a.recover (r.call f)
  | .recover .generic => Recoverable.recover (σ := Host) a (r.call f)
  | .adapt => Recoverable.adapt (σ := Host) a fun e => r.call f e >>= failureOf
  | .mapError => a.mapError fun e => r.call f e >>= failureOf

/-- The action of an operation on `a` alone. -/
def assembleWrap (a : Task) : Wrapping → Task
  | .discard => Task.emptied (Mappable.discard (σ := Host) a)
  | .observe .direct => Task.observed a.observe
  | .observe .generic => Task.observed (Recoverable.observe (σ := Host) a)
  | .containPanic => a.containPanic

/-- The action of an operation that goes on after `a`. -/
def assembleChain (r : Runner Plan Task) (a : Task) (k : Closure Expr) : Chaining → Task
  | .bind .direct => a.bind (r.build k)
  | .bind .generic => Chainable.bind (σ := Host) a (r.build k)
  | .andThen .direct => a.andThen (r.build k)
  | .andThen .generic => Chainable.andThen (σ := Host) a (r.build k)
  | .tryCatch .direct => a.tryCatch (r.build k)
  | .tryCatch .generic => Recoverable.tryCatch (σ := Host) a (r.build k)

/-- The action of an operation on two actions. -/
def assembleJoin (r : Runner Plan Task) (a b : Task) : Joining → Task
  | .zip .direct => Task.paired (a.zip b)
  | .zip .generic => Task.paired (Zippable.zip (σ := Host) a b)
  | .seqLeft => Zippable.seqLeft (σ := Host) a b
  | .seqRight => Zippable.seqRight (σ := Host) a b
  | .followedBy .direct => a.followedBy b
  | .followedBy .generic => Chainable.followedBy (σ := Host) a b
  | .seq .direct => (Task.functions r a).seq b
  | .seq .generic => Zippable.seq (σ := Host) (Task.functions r a) b
  | .orElse => Recoverable.orElse (σ := Host) a b

/-- One round of a loop. -/
def assembleStep (r : Runner Plan Task) (step : Closure Expr) (v : Value) :
    Work Host (Action Host Value (Either Value Value)) := Task.sided <$> r.build step v

/-- The action that a plan describes, with code carried out by `r`. -/
def assemble (r : Runner Plan Task) : Plan → Task
  | value .direct v => .pure v
  | value .generic v => Zippable.ofValue Host v
  | failure .direct e => .failed e
  | failure .generic e => Recoverable.throw Host e
  | outcome .direct o => .ofExcept o
  | outcome .generic o => Recoverable.ofExcept Host o
  | putLine line => Task.emptied (.putLine line)
  | getLine => Action.getLine.map fun line => return .text line
  | sleep => Task.emptied .sleep
  | delay op env t => assembleDelay r env t op
  | defer env e => .defer (r.expr env e)
  | map op p f => assembleMap r (assemble r p) f op
  | mapConst p v => Mappable.mapConst (σ := Host) (assemble r p) v
  | wrap op p => assembleWrap (assemble r p) op
  | chain op p k => assembleChain r (assemble r p) k op
  | join op p q => assembleJoin r (assemble r p) (assemble r q) op
  | zipWith .direct p q f => (assemble r p).zipWith (assemble r q) (r.call₂ f)
  | zipWith .generic p q f => Zippable.zipWith (σ := Host) (assemble r p) (assemble r q) (r.call₂ f)
  | loop .direct seed step => .loop seed (assembleStep r step)
  | loop .generic seed step => Chainable.loop (σ := Host) seed (assembleStep r step)

/-- The plan of an operation that holds a value. -/
def ofHolding : Holding → Value → Work Host Plan
  | .value form, v => return value form v
  | .failure form, v => failure form <$> failureOf v
  | .outcome form, v => outcome form <$> outcomeOf v
  | .putLine, v => do return putLine (← lineOf v)
  | .sleep, v => do
    let _ ← countOf v
    return sleep

end Plan

/-- Where an expression builds an action, it builds a plan. There is no absent action. -/
instance : Context Plan Task where
  ready := Plan.assemble
  perform a := .ofExcept <$> a.run
  absent := malformed
  getLine := return .getLine
  hold := Plan.ofHolding
  delay op env t := return .delay op env t
  defer env e := return .defer env e
  map _ op p f := return .map op p f
  mapConst p v := return .mapConst p v
  wrap op p := return .wrap op p
  chain _ op p k := return .chain op p k
  join _ op p q := return .join op p q
  zipWith _ form p q f := return .zipWith form p q f
  loop _ form seed step := return .loop form seed step

end Deferral.Script
