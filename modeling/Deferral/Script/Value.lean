import Deferral.Either.Order
import Deferral.Script.Term
import Deferral.Text.Layout
import Deferral.Text.Quoted

/-!
# Values of scripts

What terms compute. A function is a value together with the environment in which it was written.
Equality is structural, except that functions are equal to nothing (`Value.same`).
-/

namespace Deferral.Script

/-- A value. -/
inductive Value where
  | unit
  | bool (b : Bool)
  | int (n : Int64)
  | text (s : String)
  | list (vs : List Value)
  | pair (a b : Value)
  | some (v : Value)
  | none
  | ok (v : Value)
  | err (v : Value)
  | left (v : Value)
  | right (v : Value)
  | fault (f : Fault)
  | closure (env : List (String × Value)) (x : String) (body : Term)

/-- The values of the names in scope, the innermost first. -/
abbrev Env : Type := List (String × Value)

/-- Code with one parameter and the environment in which it was written. -/
structure Closure (β : Type) where
  env : Env
  x : String
  body : β

/-- The environment of the body when the parameter has a value. -/
def Closure.scope {β : Type} (f : Closure β) (v : Value) : Env := (f.x, v) :: f.env

/-- Code with two parameters and the environment in which it was written. -/
structure Closure₂ (β : Type) where
  env : Env
  x : String
  y : String
  body : β

/-- The environment of the body when the parameters have values. -/
def Closure₂.scope {β : Type} (f : Closure₂ β) (v w : Value) : Env := (f.y, w) :: (f.x, v) :: f.env

instance : OfFault Value := ⟨.fault⟩

namespace Value

mutual

/-- Two values are equal. -/
def same : Value → Value → Bool
  | unit, unit => true
  | bool a, bool b => a == b
  | int a, int b => a == b
  | text a, text b => a == b
  | list vs, list ws => sameAll vs ws
  | pair a b, pair c d => same a c && same b d
  | some a, some b => same a b
  | none, none => true
  | ok a, ok b => same a b
  | err a, err b => same a b
  | left a, left b => same a b
  | right a, right b => same a b
  | fault f, fault g => f.alike g
  | _, _ => false
termination_by structural v => v

/-- Two lists of values are equal. -/
def sameAll : List Value → List Value → Bool
  | [], [] => true
  | v :: vs, w :: ws => same v w && sameAll vs ws
  | _, _ => false
termination_by structural vs => vs

end

instance : BEq Value := ⟨same⟩

/-- How a fault is shown inside a value. -/
def faultLayout : Fault → Layout
  | .panicked t => .call "Panicked" [.atom (Text.quoted t)]
  | .message t => .call "Message" [.atom (Text.quoted t)]
  | .other c => .call "Other" [.atom (Text.quoted c.text)]

mutual

/-- How a value is shown. -/
def layout : Value → Layout
  | unit => .atom "()"
  | bool b => .atom (if b then "true" else "false")
  | int n => .atom (toString n.toInt)
  | text s => .atom (Text.quoted s)
  | list vs => .list (layoutAll vs)
  | pair a b => .call "" [layout a, layout b]
  | some v => .call "Some" [layout v]
  | none => .atom "None"
  | ok v => .call "Ok" [layout v]
  | err v => .call "Err" [layout v]
  | left v => .call "Left" [layout v]
  | right v => .call "Right" [layout v]
  | fault f => faultLayout f
  | closure _ _ _ => .atom "<fn>"
termination_by structural v => v

/-- How each value of a list is shown. -/
def layoutAll : List Value → List Layout
  | [] => []
  | v :: vs => layout v :: layoutAll vs
termination_by structural vs => vs

end

/-- A result as a value. -/
def ofExcept : Except Value Value → Value
  | .ok v => ok v
  | .error e => err e

/-- An optional value as a value. -/
def ofOption : Option Value → Value
  | Option.some v => some v
  | Option.none => none

/-- A value that is a result. -/
def toExcept? : Value → Option (Except Value Value)
  | ok v => Option.some (.ok v)
  | err e => Option.some (.error e)
  | _ => Option.none

/-- A value that has a side. -/
def toEither? : Value → Option (Either Value Value)
  | left v => Option.some (.left v)
  | right v => Option.some (.right v)
  | _ => Option.none

/-- The side of a value for a branch on it: successes, right values and present values are right;
failures and left values are left, and so is the absent value, with nothing in it. -/
def side? : Value → Option (Either Value Value)
  | ok v | right v | some v => Option.some (.right v)
  | err v | left v => Option.some (.left v)
  | none => Option.some (.left unit)
  | _ => Option.none

/-- A value on a side, as a value. -/
def ofEither : Either Value Value → Value
  | .left v => left v
  | .right v => right v

end Value
end Deferral.Script
