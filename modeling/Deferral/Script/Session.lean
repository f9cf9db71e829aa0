import Deferral.Action.Basic
import Deferral.Script.Outcome
import Deferral.Script.Plan
import Deferral.Script.World

/-!
# Sessions

A session is a list of steps over one world: actions are built into slots, and run, shown,
compared or dropped from there. Every step has a report of its own, and a panic ends only the step
it happens in.

`evaluateOptional` and `evaluateResult` build an outcome in a world of its own.
-/

namespace Deferral.Script

/-- How the outcome of an action is shown when it is there already. -/
def Task.layout (a : Task) : Layout := Action.layout Value.layout Value.layout a

/-- A step of a session. -/
inductive Step where
  /-- Builds into a slot. -/
  | build (name : String) (e : Expr)
  /-- Runs what a slot holds. -/
  | run (name : String)
  /-- Runs what a slot holds, with a callback. -/
  | runThen (name : String) (f : Closure Term)
  /-- Shows what a slot holds, spread over lines or not. It stays there. -/
  | display (name : String) (spread : Bool)
  /-- Shows what an expression builds. -/
  | displayExpr (e : Expr)
  /-- Compares what two slots hold. -/
  | agree (l r : String)
  /-- Compares what two slots hold by given tests. -/
  | agreeBy (l r : String) (valueEq errorEq : Closure₂ Term)
  /-- Empties a slot. -/
  | drop (name : String)
  /-- Computes a term. -/
  | eval (t : Term)

/-- What a step answers. -/
inductive Answer where
  | built
  | dropped
  | value (v : Value)
  /-- The value of the callback. -/
  | called (v : Value)
  | shown (text : String)

/-- Takes the plan that a slot holds, as an action. -/
def takeTask (r : Runner Plan Task) (name : String) : Work Host Task :=
  Plan.assemble r <$> takeSlot name

/-- A test of values that is written as a script. -/
def testOf (r : Runner Plan Task) (f : Closure₂ Term) (v w : Value) : Work Host Bool := do
  truthOf (← r.call₂ f v w)

/-- The layout of what an expression builds. A pair of actions and an observed action are shown as
they are, before their outcome is made a value of scripts. -/
def exprLayout (r : Runner Plan Task) : Expr → Work Host Layout
  | .join (.zip .direct) a b => do
    let p ← a.build r []
    let q ← b.build r []
    return ((p.assemble r).zip (q.assemble r)).layout (fun x => (Value.pair x.1 x.2).layout)
      Value.layout
  | .wrap (.observe .direct) a => do
    let p ← a.build r []
    return (p.assemble r).observe.layout (fun x => (Value.ofExcept x).layout) Value.layout
  | e => do
    let p ← e.build r []
    return (p.assemble r).layout

/-- Does a step. -/
def Step.perform (r : Runner Plan Task) : Step → Work Host Answer
  | build name e => do
    let p ← e.build r []
    modify (World.fill name p)
    return .built
  | run name => do
    let a ← takeTask r name
    return .value (.ofExcept (← a.run))
  | runThen name f => do
    let a ← takeTask r name
    return .called (← a.runThen fun outcome => r.call f (.ofExcept outcome))
  | display name spread => do
    let p ← peekSlot name
    let l := (p.assemble r).layout
    return .shown (if spread then l.spread else l.compact)
  | displayExpr e => do
    let l ← exprLayout r e
    return .shown l.compact
  | agree l r' => do
    let a ← takeTask r l
    let b ← takeTask r r'
    return .value (.bool (← a.agree b))
  | agreeBy l r' valueEq errorEq => do
    let a ← takeTask r l
    let b ← takeTask r r'
    return .value (.bool (← a.agreeBy b (testOf r valueEq) (testOf r errorEq)))
  | drop name => do
    let _ ← takeSlot (κ := Plan) name
    return .dropped
  | eval t => do
    let v ← t.eval r []
    return .value v

/-- The reports on the steps of a session. -/
def session (budget : Nat) : Host → List Step → List (Report Answer)
  | _, [] => []
  | w, s :: steps =>
    let r := w.report budget (withRunner s.perform)
    r.1 :: session budget r.2 steps

/-- Builds an outcome in a world of its own. -/
def buildOutcome {κ ρ : Type} [Context κ ρ] (budget : Nat) (e : Expr) : Report Value :=
  let build : Runner κ ρ → Work (World κ) Value := fun r => do
    let k ← e.build r []
    Context.perform (Context.ready r k)
  ((World.fresh false .values []).report budget (withRunner build)).1

/-- Builds an optional value. -/
def evaluateOptional (budget : Nat) (e : Expr) : Report Value :=
  buildOutcome (κ := Option Value) budget e

/-- Builds a result. -/
def evaluateResult (budget : Nat) (e : Expr) : Report Value := buildOutcome (κ := Result) budget e

end Deferral.Script
