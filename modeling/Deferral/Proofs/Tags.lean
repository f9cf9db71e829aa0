import Deferral.Script.Plan
import Mathlib.Data.Nat.Notation
import Mathlib.Data.List.Nodup

/-!
# Tags

A tag is a text that code logs and that is written out in it. `Expr.places` lists the places of
an expression that log tags, each with the steps of loops that it is inside of.

Code is tame if all that it logs are tags, and if a function that logs is only written where it
is applied: functions that have names log nothing, so they can be called any number of times.
A function in place may be applied to several arguments one after the other; their number is
the depth at which code is tame. What becomes of an operand (`Role`) says at which depth it has to
be. A step of a loop logs a tag of its own before all else (`Expr.Marked`), whose entries count the
calls of the step.

* `Term.Tame.succ`, `Expr.Tame.succ`: tame code is tame at larger depths.
* `Expr.build_of_mark?`: a step that is called logs its tag, then it builds.
-/

namespace Deferral.Script

/-- A place in code that logs a tag. -/
structure Place where
  tag : String
  /-- The tags of the steps of loops around the place, the outermost first. -/
  steps : List String
  deriving DecidableEq

/-- The places of code that logs this tag, if there is one. -/
def Place.ofTag : Option String → List Place
  | some tag => [⟨tag, []⟩]
  | none => []

/-- A place in a step of a loop, as a place of the loop. -/
def Place.inside (step : Option String) (p : Place) : Place :=
  { p with steps := step.toList ++ p.steps }

/-- What becomes of the value of an operand. -/
inductive Role where
  /-- It is named, read or dropped. -/
  | used
  /-- It is a part of the result. -/
  | passed
  /-- It is applied once, and the result of that is passed. -/
  | applied

/-- The depth of an operand, for the depth of the result. -/
def Role.depth (k : ℕ) : Role → ℕ
  | used => 0
  | passed => k
  | applied => k + 1

/-- What grows with the depth of the result grows with that of the operand. -/
theorem Role.succ (role : Role) (P : ℕ → Prop) (h : ∀ {k : ℕ}, P k → P (k + 1)) {k : ℕ}
    (hk : P (role.depth k)) : P (role.depth (k + 1)) := by
  cases role with
  | used => exact hk
  | passed | applied => exact h hk

section Operations

/-- The tag that an operation logs. -/
def Prim.tag? : Prim → List Term → Option String
  | log, [.text s] => Option.some s
  | _, _ => Option.none

/-- Only logging a text that is written out has a tag. -/
theorem Prim.eq_of_tag? {op : Prim} {args : List Term} {tag : String}
    (h : op.tag? args = Option.some tag) : op = log ∧ args = [.text tag] := by
  unfold Prim.tag? at h
  split at h
  · cases h; exact ⟨rfl, rfl⟩
  · cases h

/-- What becomes of the operands of an operation on values. -/
def Prim.role : Prim → Role
  | ok | right => .passed
  | _ => .used

/-- What becomes of the value that is held. -/
def Holding.role : Holding → Role
  | value _ | outcome _ => .passed
  | failure _ | putLine | sleep => .used

/-- What becomes of the operand. -/
def Mapping.role : Mapping → Role
  | map _ => .used
  | recover _ | adapt | mapError => .passed

/-- What becomes of the value of the function. -/
def Mapping.bodyRole : Mapping → Role
  | map _ | recover _ => .passed
  | adapt | mapError => .used

/-- What becomes of the operand. -/
def Chaining.role : Chaining → Role
  | bind _ | andThen _ => .used
  | tryCatch _ => .passed

/-- What becomes of the left operand. -/
def Joining.left : Joining → Role
  | zip _ | seqRight | followedBy _ => .used
  | seqLeft | orElse => .passed
  | seq _ => .applied

/-- What becomes of the right operand. -/
def Joining.right : Joining → Role
  | zip _ | seqLeft | seq _ => .used
  | seqRight | followedBy _ | orElse => .passed

end Operations

section Term

mutual

/-- The places of a term, without actions that it runs. -/
def Term.places : Term → List Place
  | .unit | .bool _ | .int _ | .text _ | .var _ | .run _ => []
  | .bind _ t u => Term.places t ++ Term.places u
  | .fn _ body => Term.places body
  | .call f a => Term.places f ++ Term.places a
  | .block ts => Term.placesAll ts
  | .cond c t u => Term.places c ++ (Term.places t ++ Term.places u)
  | .cases t _ a _ b => Term.places t ++ (Term.places a ++ Term.places b)
  | .prim op args => Place.ofTag (op.tag? args) ++ Term.placesAll args
termination_by structural t => t

/-- The places of some terms. -/
def Term.placesAll : List Term → List Place
  | [] => []
  | t :: ts => Term.places t ++ Term.placesAll ts
termination_by structural ts => ts

end

mutual

/-- The term runs no action, logs only tags, and has functions that log only where they are
applied. Its value may be a function in place, for `k` arguments. -/
def Term.Tame : Term → ℕ → Prop
  | .unit, _ | .bool _, _ | .int _, _ | .text _, _ | .var _, _ => True
  | .bind _ t u, k => Term.Tame t 0 ∧ Term.Tame u k
  | .fn _ body, 0 => Term.Tame body 0 ∧ body.places = []
  | .fn _ body, k + 1 => Term.Tame body k
  | .call f a, k => Term.Tame f (k + 1) ∧ Term.Tame a 0
  | .block ts, k => Term.TameBlock ts k
  | .cond c t u, k => Term.Tame c 0 ∧ Term.Tame t k ∧ Term.Tame u k
  | .cases t _ a _ b, k => Term.Tame t 0 ∧ Term.Tame a k ∧ Term.Tame b k
  | .prim op args, k =>
    Term.TameAll args (op.role.depth k) ∧ (op = .log → (op.tag? args).isSome)
  | .run _, _ => False
termination_by structural t => t

/-- All of the terms are tame. -/
def Term.TameAll : List Term → ℕ → Prop
  | [], _ => True
  | t :: ts, k => Term.Tame t k ∧ Term.TameAll ts k
termination_by structural ts => ts

/-- Terms of which the last one gives the value. -/
def Term.TameBlock : List Term → ℕ → Prop
  | [], _ => True
  | [t], k => Term.Tame t k
  | t :: ts, k => Term.Tame t 0 ∧ Term.TameBlock ts k
termination_by structural ts => ts

end

mutual

/-- Tame terms are tame at larger depths. -/
theorem Term.Tame.succ : (t : Term) → ∀ {k : ℕ}, t.Tame k → t.Tame (k + 1)
  | .unit, _, _ | .bool _, _, _ | .int _, _, _ | .text _, _, _ | .var _, _, _ => trivial
  | .bind _ _ u, _, h => ⟨h.1, Term.Tame.succ u h.2⟩
  -- a function at depth zero logs nothing, so as one in place it may be for an argument
  | .fn _ _, 0, h => h.1
  | .fn _ body, _ + 1, h => Term.Tame.succ body h
  | .call f _, _, h => ⟨Term.Tame.succ f h.1, h.2⟩
  | .block ts, _, h => Term.TameBlock.succ ts h
  | .cond _ t u, _, h => ⟨h.1, Term.Tame.succ t h.2.1, Term.Tame.succ u h.2.2⟩
  | .cases _ _ a _ b, _, h => ⟨h.1, Term.Tame.succ a h.2.1, Term.Tame.succ b h.2.2⟩
  | .prim op args, _, h => ⟨op.role.succ (Term.TameAll args) (Term.TameAll.succ args) h.1, h.2⟩
  | .run _, _, h => h.elim
termination_by structural t => t

theorem Term.TameAll.succ :
    (ts : List Term) → ∀ {k : ℕ}, Term.TameAll ts k → Term.TameAll ts (k + 1)
  | [], _, _ => trivial
  | t :: ts, _, h => ⟨Term.Tame.succ t h.1, Term.TameAll.succ ts h.2⟩
termination_by structural ts => ts

theorem Term.TameBlock.succ :
    (ts : List Term) → ∀ {k : ℕ}, Term.TameBlock ts k → Term.TameBlock ts (k + 1)
  | [], _, _ => trivial
  | [t], _, h => Term.Tame.succ t h
  | _ :: u :: ts, _, h => ⟨h.1, Term.TameBlock.succ (u :: ts) h.2⟩
termination_by structural ts => ts

end

end Term

section Expr

/-- The tag that an expression logs before all else. -/
def Expr.mark? : Expr → Option String
  | .after (.prim op args) _ => op.tag? args
  | _ => none

/-- What logs a tag before all else logs it, and then builds by the rest. -/
theorem Expr.build_of_mark? {e : Expr} {tag : String} (h : e.mark? = some tag) :
    ∃ e', e = .after (.prim .log [.text tag]) e' ∧ ∀ (r : Runner Plan Task) (env : Env),
      e.build r env = modify (World.log (.text tag)) >>= fun _ : PUnit => e'.build r env := by
  unfold Expr.mark? at h
  split at h
  · next e' =>
    obtain ⟨rfl, rfl⟩ := Prim.eq_of_tag? h
    exact ⟨e', rfl, fun _ _ => rfl⟩
  · cases h

/-- The places of an expression. -/
def Expr.places : Expr → List Place
  | .slot _ | .absent | .getLine => []
  | .cond c a b => c.places ++ (Expr.places a ++ Expr.places b)
  | .bind _ t e | .after t e => t.places ++ Expr.places e
  | .cases t _ a _ b => t.places ++ (Expr.places a ++ Expr.places b)
  | .repeated times _ first step => times.places ++ (Expr.places first ++ Expr.places step)
  | .hold _ t | .delay _ t => t.places
  | .defer e | .wrap _ e => Expr.places e
  | .map _ e _ body => Expr.places e ++ body.places
  | .mapConst e t => Expr.places e ++ t.places
  | .chain _ e _ body => Expr.places e ++ Expr.places body
  | .join _ a b => Expr.places a ++ Expr.places b
  | .zipWith _ a b _ _ body => Expr.places a ++ (Expr.places b ++ body.places)
  | .loop _ seed _ step => seed.places ++ (Expr.places step).map (Place.inside step.mark?)
termination_by structural e => e

/-- A step of a loop logs a tag of its own before all else, and no tag at two places. -/
def Expr.Marked (step : Expr) : Prop :=
  step.mark?.isSome ∧ (step.places.map Place.tag).Nodup

/-- The expression repeats nothing but steps of loops, runs no action while it is built, logs
only tags, and has functions that log only where they are applied. What it builds may give a
function in place, for `k` arguments. -/
def Expr.Tame : Expr → ℕ → Prop
  | .slot _, _ | .absent, _ | .getLine, _ => True
  | .cond c a b, k => c.Tame 0 ∧ Expr.Tame a k ∧ Expr.Tame b k
  | .bind _ t e, k | .after t e, k => t.Tame 0 ∧ Expr.Tame e k
  | .cases t _ a _ b, k => t.Tame 0 ∧ Expr.Tame a k ∧ Expr.Tame b k
  | .repeated _ _ _ _, _ => False
  | .hold op t, k => t.Tame (op.role.depth k)
  | .delay _ t, k => t.Tame k
  | .defer e, k | .wrap _ e, k => Expr.Tame e k
  | .map op e _ body, k => Expr.Tame e (op.role.depth k) ∧ body.Tame (op.bodyRole.depth k)
  | .mapConst e t, k => Expr.Tame e 0 ∧ t.Tame k
  | .chain op e _ body, k => Expr.Tame e (op.role.depth k) ∧ Expr.Tame body k
  | .join op a b, k => Expr.Tame a (op.left.depth k) ∧ Expr.Tame b (op.right.depth k)
  | .zipWith _ a b _ _ body, k => Expr.Tame a 0 ∧ Expr.Tame b 0 ∧ body.Tame k
  | .loop _ seed _ step, k => seed.Tame 0 ∧ Expr.Tame step k ∧ step.Marked
termination_by structural e => e

/-- Tame expressions are tame at larger depths. -/
theorem Expr.Tame.succ : (e : Expr) → ∀ {k : ℕ}, e.Tame k → e.Tame (k + 1)
  | .slot _, _, _ | .absent, _, _ | .getLine, _, _ => trivial
  | .cond _ a b, _, h | .cases _ _ a _ b, _, h =>
    ⟨h.1, Expr.Tame.succ a h.2.1, Expr.Tame.succ b h.2.2⟩
  | .bind _ _ e, _, h | .after _ e, _, h => ⟨h.1, Expr.Tame.succ e h.2⟩
  | .repeated _ _ _ _, _, h => h.elim
  | .hold op t, _, h => op.role.succ t.Tame (Term.Tame.succ t) h
  | .delay _ t, _, h => Term.Tame.succ t h
  | .defer e, _, h | .wrap _ e, _, h => Expr.Tame.succ e h
  | .map op e _ body, _, h =>
    ⟨op.role.succ e.Tame (Expr.Tame.succ e) h.1,
      op.bodyRole.succ body.Tame (Term.Tame.succ body) h.2⟩
  | .mapConst _ t, _, h => ⟨h.1, Term.Tame.succ t h.2⟩
  | .chain op e _ body, _, h =>
    ⟨op.role.succ e.Tame (Expr.Tame.succ e) h.1, Expr.Tame.succ body h.2⟩
  | .join op a b, _, h =>
    ⟨op.left.succ a.Tame (Expr.Tame.succ a) h.1, op.right.succ b.Tame (Expr.Tame.succ b) h.2⟩
  | .zipWith _ _ _ _ _ body, _, h => ⟨h.1, h.2.1, Term.Tame.succ body h.2.2⟩
  -- the mark of a step has nothing to do with depth
  | .loop _ _ _ step, _, h => ⟨h.1, Expr.Tame.succ step h.2.1, h.2.2⟩
termination_by structural e => e

end Expr

end Deferral.Script
