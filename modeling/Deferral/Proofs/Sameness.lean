import Deferral.Script.Value
import Mathlib.Logic.Basic

/-!
# Equal values

Values of scripts are equal by their structure. A fault counts by its kind and its text: what is
behind it does not show, so `Value.bare` leaves it out. Functions are equal to nothing, themselves
included, so the values here have none in them (`Value.FunctionFree`).

* `Value.same_iff_bare`: **values are equal if they are built alike**, by induction on the one with
  a case for each way in which the other is built.
-/

namespace Deferral

/-- The fault without what is behind it. -/
def Fault.bare : Fault → Fault
  | other c => other (.plain c.text)
  | f => f

/-- Kind and text are all that is left of a fault. -/
theorem Fault.alike_iff_bare (f g : Fault) : f.alike g = true ↔ f.bare = g.bare := by
  cases f <;> cases g <;> simp [alike, bare, kind, text]

namespace Script.Value

mutual

/-- No function is in the value. -/
def FunctionFree : Value → Prop
  | list vs => FunctionFreeAll vs
  | pair a b => FunctionFree a ∧ FunctionFree b
  | some v | ok v | err v | left v | right v => FunctionFree v
  | closure _ _ _ => False
  | unit | bool _ | int _ | text _ | none | fault _ => True
termination_by structural v => v

/-- No function is in the values. -/
def FunctionFreeAll : List Value → Prop
  | [] => True
  | v :: vs => FunctionFree v ∧ FunctionFreeAll vs
termination_by structural vs => vs

end

mutual

/-- The value without what is behind its faults. -/
def bare : Value → Value
  | list vs => list (bareAll vs)
  | pair a b => pair (bare a) (bare b)
  | some v => some (bare v)
  | ok v => ok (bare v)
  | err v => err (bare v)
  | left v => left (bare v)
  | right v => right (bare v)
  | fault f => fault f.bare
  | unit => unit
  | bool b => bool b
  | int n => int n
  | text s => text s
  | none => none
  | closure env x body => closure env x body
termination_by structural v => v

/-- The values without what is behind their faults. -/
def bareAll : List Value → List Value
  | [] => []
  | v :: vs => bare v :: bareAll vs
termination_by structural vs => vs

end

mutual

/-- **Values are equal if they are built alike.** -/
theorem same_iff_bare : (v w : Value) → v.FunctionFree → (same v w = true ↔ v.bare = w.bare)
  | unit, w, _ | bool _, w, _ | int _, w, _ | text _, w, _ | none, w, _ => by
    cases w <;> simp [same, bare]
  | fault f, w, _ => by
    cases w with
    | fault g => rw [same, bare, bare, fault.injEq, Fault.alike_iff_bare]
    | _ => simp [same, bare]
  | list vs, w, hv => by
    cases w with
    | list ws => rw [same, bare, bare, list.injEq, sameAll_iff_bareAll vs ws hv]
    | _ => simp [same, bare]
  | pair a b, w, hv => by
    cases w with
    | pair c d =>
      rw [same, bare, bare, pair.injEq, Bool.and_eq_true, same_iff_bare a c hv.1,
        same_iff_bare b d hv.2]
    | _ => simp [same, bare]
  | some v, w, hv => by
    cases w with
    | some w => rw [same, bare, bare, some.injEq, same_iff_bare v w hv]
    | _ => simp [same, bare]
  | ok v, w, hv => by
    cases w with
    | ok w => rw [same, bare, bare, ok.injEq, same_iff_bare v w hv]
    | _ => simp [same, bare]
  | err v, w, hv => by
    cases w with
    | err w => rw [same, bare, bare, err.injEq, same_iff_bare v w hv]
    | _ => simp [same, bare]
  | left v, w, hv => by
    cases w with
    | left w => rw [same, bare, bare, left.injEq, same_iff_bare v w hv]
    | _ => simp [same, bare]
  | right v, w, hv => by
    cases w with
    | right w => rw [same, bare, bare, right.injEq, same_iff_bare v w hv]
    | _ => simp [same, bare]
  -- a function on the left is ruled out; one on the right is equal to none of the others
  | closure _ _ _, _, hv => hv.elim
termination_by structural v => v

theorem sameAll_iff_bareAll : (vs ws : List Value) → FunctionFreeAll vs →
    (sameAll vs ws = true ↔ bareAll vs = bareAll ws)
  | [], ws, _ => by cases ws <;> simp [sameAll, bareAll]
  | v :: vs, ws, hv => by
    cases ws with
    | nil => simp [sameAll, bareAll]
    | cons w ws =>
      rw [sameAll, bareAll, bareAll, List.cons.injEq, Bool.and_eq_true, same_iff_bare v w hv.1,
        sameAll_iff_bareAll vs ws hv.2]
termination_by structural vs => vs

end

end Script.Value
end Deferral
