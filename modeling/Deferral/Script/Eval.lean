import Deferral.Script.Prim

/-!
# Carrying out scripts

`Term.eval` computes the value of a term and `Expr.build` builds a carrier by an expression, both
by recursion on the code. The code inside functions is not part of the code that calls them, so it
is left to a `Runner`: `Runner.within` bounds how deep calls of functions may nest.

What expressions build is held as `κ`. A `Context` says what each operation of an expression does
there, and how the result is made fit to run, as a `ρ`.
-/

namespace Deferral.Script

/-- How the code of functions is carried out. -/
structure Runner (κ ρ : Type) where
  /-- Computes a term in an environment. -/
  term : Env → Term → Work (World κ) Value
  /-- Builds by an expression in an environment. -/
  expr : Env → Expr → Work (World κ) ρ

variable {κ ρ : Type}

namespace Runner

/-- Applies a function whose body is a term. -/
def call (r : Runner κ ρ) (f : Closure Term) (v : Value) : Work (World κ) Value :=
  r.term (f.scope v) f.body

/-- Applies a function of two parameters whose body is a term. -/
def call₂ (r : Runner κ ρ) (f : Closure₂ Term) (v w : Value) : Work (World κ) Value :=
  r.term (f.scope v w) f.body

/-- Applies a function whose body is an expression. -/
def build (r : Runner κ ρ) (f : Closure Expr) (v : Value) : Work (World κ) ρ :=
  r.expr (f.scope v) f.body

/-- Applies a value that is a function. -/
def apply (r : Runner κ ρ) : Value → Value → Work (World κ) Value
  | .closure env x body, v => r.call ⟨env, x, body⟩ v
  | _, _ => malformed

end Runner

/-- What the operations of expressions do where they build a `κ`. -/
class Context (κ : Type) (ρ : outParam Type) where
  /-- Makes what was built fit to run. -/
  ready : Runner κ ρ → κ → ρ
  /-- Runs it, and gives its outcome as a value. -/
  perform : ρ → Work (World κ) Value
  /-- Holds no value. -/
  absent : Work (World κ) κ
  /-- Takes a line of the input. -/
  getLine : Work (World κ) κ
  /-- Holds a value. -/
  hold : Holding → Value → Work (World κ) κ
  /-- Puts off a term. -/
  delay : Delaying → Env → Term → Work (World κ) κ
  /-- Puts off the building of an expression. -/
  defer : Env → Expr → Work (World κ) κ
  /-- Changes what is held by a function. -/
  map : Runner κ ρ → Mapping → κ → Closure Term → Work (World κ) κ
  /-- Puts another value in place of the value. -/
  mapConst : κ → Value → Work (World κ) κ
  /-- An operation on one operand alone. -/
  wrap : Wrapping → κ → Work (World κ) κ
  /-- Goes on with what a function builds. -/
  chain : Runner κ ρ → Chaining → κ → Closure Expr → Work (World κ) κ
  /-- An operation on two operands. -/
  join : Runner κ ρ → Joining → κ → κ → Work (World κ) κ
  /-- Combines two operands by a function. -/
  zipWith : Runner κ ρ → Form → κ → κ → Closure₂ Term → Work (World κ) κ
  /-- Repeats what a function builds, from a seed. -/
  loop : Runner κ ρ → Form → Value → Closure Expr → Work (World κ) κ

variable [Context κ ρ]

/-- Builds by `step` `times` times, the first time with `index`, each time with what was built so
far in a slot. -/
def stepwise (name : String) (step : Int64 → Work (World κ) κ) :
    (times index : Nat) → κ → Work (World κ) κ
  | 0, _, k => return k
  | times + 1, index, k => do
    modify (World.fill name k)
    stepwise name step times (index + 1) (← step (Int64.ofNat index))

mutual

/-- The value of a term. -/
def Term.eval (r : Runner κ ρ) (env : Env) : Term → Work (World κ) Value
  | .unit => return .unit
  | .bool b => return .bool b
  | .int n => return .int n
  | .text s => return .text s
  | .var x =>
    match env.lookup x with
    | some v => return v
    | none => malformed
  | .bind x t u => do
    let v ← Term.eval r env t
    Term.eval r ((x, v) :: env) u
  | .fn x body => return .closure env x body
  | .call f a => do
    let g ← Term.eval r env f
    let v ← Term.eval r env a
    r.apply g v
  | .block ts => Term.evalBlock r env ts
  | .cond c t u => do
    if ← truthOf (← Term.eval r env c) then Term.eval r env t else Term.eval r env u
  | .cases t x a y b => do
    match (← Term.eval r env t).side? with
    | some (.right v) => Term.eval r ((x, v) :: env) a
    | some (.left v) => Term.eval r ((y, v) :: env) b
    | none => malformed
  | .prim op args => do
    let vs ← Term.evalAll r env args
    op.apply vs
  | .run e => do
    let k ← Expr.build r env e
    Context.perform (Context.ready r k)
termination_by structural t => t

/-- The values of terms, from left to right. -/
def Term.evalAll (r : Runner κ ρ) (env : Env) : List Term → Work (World κ) (List Value)
  | [] => return []
  | t :: ts => do
    let v ← Term.eval r env t
    let vs ← Term.evalAll r env ts
    return v :: vs
termination_by structural ts => ts

/-- The value of the last of some terms. -/
def Term.evalBlock (r : Runner κ ρ) (env : Env) : List Term → Work (World κ) Value
  | [] => return .unit
  | [t] => Term.eval r env t
  | t :: ts => do
    let _ ← Term.eval r env t
    Term.evalBlock r env ts
termination_by structural ts => ts

/-- What an expression builds. -/
def Expr.build (r : Runner κ ρ) (env : Env) : Expr → Work (World κ) κ
  | .slot name => takeSlot name
  | .cond c a b => do
    if ← truthOf (← Term.eval r env c) then Expr.build r env a else Expr.build r env b
  | .bind x t e => do
    let v ← Term.eval r env t
    Expr.build r ((x, v) :: env) e
  | .after t e => do
    let _ ← Term.eval r env t
    Expr.build r env e
  | .cases t x a y b => do
    match (← Term.eval r env t).side? with
    | some (.right v) => Expr.build r ((x, v) :: env) a
    | some (.left v) => Expr.build r ((y, v) :: env) b
    | none => malformed
  | .repeated times name first step => do
    let n ← countOf (← Term.eval r env times)
    let k ← Expr.build r env first
    stepwise name (fun i => Expr.build r (("i", .int i) :: env) step) n 0 k
  | .absent => Context.absent
  | .getLine => Context.getLine
  | .hold op t => do Context.hold op (← Term.eval r env t)
  | .delay op t => Context.delay op env t
  | .defer e => Context.defer env e
  | .map op e x body => do
    let k ← Expr.build r env e
    Context.map r op k ⟨env, x, body⟩
  | .mapConst e t => do
    let k ← Expr.build r env e
    let v ← Term.eval r env t
    Context.mapConst k v
  | .wrap op e => do
    let k ← Expr.build r env e
    Context.wrap op k
  | .chain op e x body => do
    let k ← Expr.build r env e
    Context.chain r op k ⟨env, x, body⟩
  | .join op a b => do
    let k ← Expr.build r env a
    let l ← Expr.build r env b
    Context.join r op k l
  | .zipWith form a b x y body => do
    let k ← Expr.build r env a
    let l ← Expr.build r env b
    Context.zipWith r form k l ⟨env, x, y, body⟩
  | .loop form seed x step => do
    let v ← Term.eval r env seed
    Context.loop r form v ⟨env, x, step⟩
termination_by structural e => e

end

namespace Runner

/-- The runner whose calls of functions nest at most so deep. -/
def within : Nat → Runner κ ρ
  | 0 => ⟨fun _ _ => Work.giveUp, fun _ _ => Work.giveUp⟩
  | depth + 1 =>
    { term := fun env t => t.eval (within depth) env
      expr := fun env e => Context.ready (within depth) <$> e.build (within depth) env }

end Runner

/-- Work with a runner that nests calls as deep as the budget allows. -/
def withRunner {α : Type} (f : Runner κ ρ → Work (World κ) α) : Work (World κ) α :=
  fun n s => f (Runner.within n) n s

end Deferral.Script
