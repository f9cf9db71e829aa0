import Deferral.Text.Layout
import Deferral.Text.Quoted

/-!
# Faults

A fault is the failure of an action whose error type was not chosen by the caller: a caught panic, a
message, or an error of some other origin (its `Cause`). The text of the outer fault and that of its
cause are kept apart: `text` is what the fault holds, `display` what it reads as. `layout` shows a
fault with all that is known of its cause.
-/

namespace Deferral

/-- Where an error of other origin comes from. -/
inductive Cause where
  /-- An error that only has a text. -/
  | plain (text : String)
  /-- An error of input or output, with its kind. -/
  | device (kind text : String)
  /-- An error that has an error behind it. -/
  | chained (text source : String)
  deriving DecidableEq

/-- What the error reads as. -/
def Cause.text : Cause → String
  | .plain t => t
  | .device _ t => t
  | .chained t _ => t

/-- What the error behind it reads as, if there is one. -/
def Cause.source : Cause → Option String
  | .chained _ s => some s
  | _ => none

/-- The failure of an action when no other error type is named. -/
inductive Fault where
  /-- A panic was caught. -/
  | panicked (text : String)
  /-- A message. -/
  | message (text : String)
  /-- Any other error. -/
  | other (cause : Cause)
  deriving DecidableEq

namespace Fault

/-- The text inside a fault. -/
def text : Fault → String
  | panicked t => t
  | message t => t
  | other c => c.text

/-- The name of the kind of a fault. -/
def kind : Fault → String
  | panicked _ => "panicked"
  | message _ => "message"
  | other _ => "other"

/-- What a fault reads as: a caught panic says so, the others show their text. -/
def display : Fault → String
  | panicked t => "effect panicked: " ++ t
  | message t => t
  | other c => c.text

/-- The fault is a caught panic. -/
def isPanic : Fault → Bool
  | panicked _ => true
  | _ => false

/-- The error behind the fault. A fault of other origin stands for its cause, so it answers with
what is behind that cause. -/
def source : Fault → Option String
  | other c => c.source
  | _ => none

/-- Two faults read the same: same kind, same text. -/
def alike (f g : Fault) : Bool := f.kind == g.kind && f.text == g.text

end Fault

/-- An error type that has a place for faults. -/
class OfFault (ε : Type) where
  /-- A fault as an error. -/
  ofFault : Fault → ε

export OfFault (ofFault)

instance : OfFault Fault := ⟨id⟩

/-! ## Faults shown -/

/-- How a cause is shown. -/
def Cause.layout : Cause → Layout
  | .plain t => .atom (Text.quoted t)
  | .device kind t => .record "Custom" [("kind", .atom kind), ("error", .atom (Text.quoted t))]
  | .chained t s => .call "Chained" [.atom (Text.quoted t), .atom (Text.quoted s)]

/-- How a fault is shown. -/
def Fault.layout : Fault → Layout
  | .panicked t => .call "Panicked" [.atom (Text.quoted t)]
  | .message t => .call "Message" [.atom (Text.quoted t)]
  | .other c => .call "Other" [c.layout]

end Deferral
