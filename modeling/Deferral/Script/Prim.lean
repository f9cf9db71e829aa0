import Deferral.Script.World

/-!
# The operations of terms

Integers have 64 bits and wrap around; division truncates, and panics when the divisor is zero.
Texts are measured in bytes.
-/

namespace Deferral.Script

/-- The division of two integers. -/
def divide (a b : Int64) : Checked Value :=
  if b = 0 then .error (.text "attempt to divide by zero") else .ok (.int (a / b))

/-- The remainder of two integers. -/
def remainder (a b : Int64) : Checked Value :=
  if b = 0 then .error (.text "attempt to calculate the remainder with a divisor of zero")
  else .ok (.int (a % b))

/-- A value as text: a text is itself. -/
def textOf : Value → Checked String
  | .text s => .ok s
  | .int n => .ok (toString n.toInt)
  | .bool b => .ok (if b then "true" else "false")
  | _ => .error (.text "type error")

namespace Prim

/-- The value of an operation that leaves the world alone. -/
def compute : Prim → List Value → Checked Value
  | .add, [.int a, .int b] => .ok (.int (a + b))
  | .sub, [.int a, .int b] => .ok (.int (a - b))
  | .mul, [.int a, .int b] => .ok (.int (a * b))
  | .div, [.int a, .int b] => divide a b
  | .mod, [.int a, .int b] => remainder a b
  | .lt, [.int a, .int b] => .ok (.bool (a < b))
  | .eq, [a, b] => .ok (.bool (a.same b))
  | .not, [.bool b] => .ok (.bool (!b))
  | .concat, [.text s, .text t] => .ok (.text (s ++ t))
  | .shown, [v] => Value.text <$> textOf v
  | .length, [.text s] => .ok (.int (Int64.ofNat s.utf8ByteSize))
  | .length, [.list vs] => .ok (.int (Int64.ofNat vs.length))
  | .lower, [.text s] => .ok (.text s.toLower)
  | .list, vs => .ok (.list vs)
  | .push, [.list vs, v] => .ok (.list (vs ++ [v]))
  | .pair, [a, b] => .ok (.pair a b)
  | .fst, [.pair a _] => .ok a
  | .snd, [.pair _ b] => .ok b
  | .some, [v] => .ok (.some v)
  | .none, [] => .ok .none
  | .ok, [v] => .ok (.ok v)
  | .err, [v] => .ok (.err v)
  | .left, [v] => .ok (.left v)
  | .right, [v] => .ok (.right v)
  | .panicText, [.text s] => .error (.text s)
  | .panicMute, [] => .error .mute
  | .fault origin, [.text s] => .ok (.fault (origin.fault s))
  | .faultDisplay, [.fault f] => .ok (.text f.display)
  | .faultIsPanic, [.fault f] => .ok (.bool f.isPanic)
  | .faultKind, [.fault f] => .ok (.text f.kind)
  | .faultText, [.fault f] => .ok (.text f.text)
  | _, _ => .error (.text "type error")

/-- Carries out an operation. -/
def apply {κ : Type} : Prim → List Value → Work (World κ) Value
  | .log, [v] => do
    modify (World.log v)
    return .unit
  | .get cell, [] => return (← getThe (World κ)).cell cell
  | .set cell, [v] => do
    modify (World.setCell cell v)
    return .unit
  | op, args => Work.ofChecked (op.compute args)

end Prim
end Deferral.Script
