import Deferral.Script.Session

/-!
# Steps on a two-sided value

The operations of `Either`, as steps whose functions are written as scripts. Some steps answer, some
change the value that the later steps see. A panic leaves it as it was.
-/

namespace Deferral.Script

/-- A two-sided value of scripts. -/
abbrev Sided : Type := Either Value Value

/-- A step on a two-sided value. -/
inductive SidedStep where
  | isLeft
  | isRight
  | left
  | right
  | fold (onLeft onRight : Closure Term)
  | display (spread : Bool)
  | toExcept
  | same (t : Term)
  | mapLeft (f : Closure Term)
  | mapRight (f : Closure Term)
  | swap
  | fromExcept (t : Term)

/-- Does a step; gives the answer and the value after it. -/
def SidedStep.perform (r : Runner Plan Task) (e : Sided) : SidedStep → Work Host (Answer × Sided)
  | isLeft => return (.value (.bool e.isLeft), e)
  | isRight => return (.value (.bool e.isRight), e)
  | left => return (.value (.ofOption e.left?), e)
  | right => return (.value (.ofOption e.right?), e)
  | fold onLeft onRight => do
    let v ← e.fold (r.call onLeft) (r.call onRight)
    return (.value v, e)
  | display spread =>
    let l := (Value.ofEither e).layout
    return (.shown (if spread then l.spread else l.compact), e)
  | toExcept => return (.value (.ofExcept e.toExcept), e)
  | same t => do
    let f ← sideOf (← t.eval r [])
    return (.value (.bool (Value.ofEither e == Value.ofEither f)), e)
  | mapLeft f => do
    let e' ← e.mapLeft (r.call f)
    return (.value .unit, e')
  | mapRight f => do
    let e' ← e.mapRight (r.call f)
    return (.value .unit, e')
  | swap => return (.value .unit, e.swap)
  | fromExcept t => do
    match (← t.eval r []).toExcept? with
    | some o => return (.value .unit, .ofExcept o)
    | none => malformed

/-- The report on a step, and the value after it. -/
def SidedStep.report (budget : Nat) (w : Host) (e : Sided) (s : SidedStep) :
    (Report (Answer × Sided) × Sided) × Host :=
  let r := w.report budget (withRunner fun r => s.perform r e)
  match r.1.ending with
  | some (.ok x) => ((r.1, x.2), r.2)
  | _ => ((r.1, e), r.2)

/-- The reports on some steps, each with the value after it. -/
def sidedSteps (budget : Nat) :
    Host → Sided → List SidedStep → List (Report (Answer × Sided) × Sided)
  | _, _, [] => []
  | w, e, s :: steps =>
    let r := s.report budget w e
    r.1 :: sidedSteps budget r.2 r.1.2 steps

/-- The reports on some steps from a value that is written as a script, if it has a side and its
computation gives a value. -/
def sidedSession (budget : Nat) (start : Term) (steps : List SidedStep) :
    Option (List (Report (Answer × Sided) × Sided)) :=
  let w : Host := .fresh false .values []
  let r := w.report budget (withRunner fun r => do sideOf (← start.eval r []))
  match r.1.ending with
  | some (.ok e) => some (sidedSteps budget r.2 e steps)
  | _ => none

end Deferral.Script
