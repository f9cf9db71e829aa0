import Deferral.Proofs.Layers
import Deferral.Proofs.Rounds
import Deferral.Script.Session

/-!
# Properties of all code

Code does what its parts do, one after the other. So a property that passes from parts to what
is made of them holds of all code, once it holds of the few things that code can do to the
world, and of loops, contained panics and runs (`Hereditary`). The induction is on the code,
with code inside functions left to the runner, and on how deep calls nest; plans are handled
by their layers.

There are two properties, since an action may do more when it is evaluated than code
may do outside of actions.

* `Term.hereditary`, `Expr.hereditary`: code has the property if the code of a runner has.
* `Plan.hereditary`: so has the action of a plan.
* `Hereditary.within`, `Step.hereditary`: so have the code of all runners, and the steps of a
  session.
-/

namespace Deferral.Script

variable {α β ε ε' : Type}

/-- A property that work has if its parts have it. -/
structure Composed (P : {α : Type} → Work Host α → Prop) : Prop where
  pure {α : Type} (a : α) : P (pure a : Work Host α)
  panic {α : Type} (p : Payload) : P (Work.panic p : Work Host α)
  giveUp {α : Type} : P (Work.giveUp : Work Host α)
  bind {α β : Type} {w : Work Host α} {f : α → Work Host β} (hw : P w) (hf : ∀ a, P (f a)) :
    P (w >>= f)

/-- Two properties, one of code and one of actions that are evaluated, that pass from parts to
what is made of them. -/
structure Hereditary (P Q : {α : Type} → Work Host α → Prop) : Prop where
  code : Composed P
  action : Composed Q
  evaluated {α : Type} {w : Work Host α} (hw : P w) : Q w
  failureOf (v : Value) : P (failureOf v : Work Host Value)
  peekSlot (name : String) : P (peekSlot name : Work Host Plan)
  cell (name : String) : P (World.cell name <$> (get : Work Host Host))
  log (v : Value) : P (modify (World.log v) : Work Host PUnit)
  setCell (name : String) (v : Value) : P (modify (World.setCell name v) : Work Host PUnit)
  fill (name : String) (p : Plan) : P (modify (World.fill name p) : Work Host PUnit)
  clear (name : String) : P (modify (World.clear name) : Work Host PUnit)
  print (t : String) : Q (Work.update (Console.print t) : Work Host Unit)
  takeLine : Q (modifyGet (Console.takeLine : Host → Except Fault String × Host) : Work Host _)
  iterate {τ α : Type} {round : τ → Work Host (Either τ α)} (h : ∀ t, Q (round t)) (seed : τ) :
    Q (Work.iterate round seed)
  loopEnded (r : Except Value Value) (rounds : ℕ) :
    Q (emit (Action.loopEnded r rounds) : Work Host Unit)
  containPanic {a : Task} (ha : Q a.evaluate) : Q a.containPanic.evaluate
  run {a : Task} (ha : Q a.evaluate) : P a.run

section Composed

variable {P : {α : Type} → Work Host α → Prop} (h : Composed P)

include h

theorem Composed.map {w : Work Host α} (hw : P w) (f : α → β) : P (f <$> w) := by
  rw [map_eq_pure_bind]
  exact h.bind hw fun a => h.pure (f a)

theorem Composed.ofChecked (x : Checked α) : P (Work.ofChecked x : Work Host α) := by
  cases x with
  | ok a => exact h.pure a
  | error p => exact h.panic p

theorem Composed.malformed : P (malformed : Work Host α) := h.panic _

/-- To read a value as a side is to have it, or to panic over what it is. -/
theorem Composed.sideOf (v : Value) : P (sideOf v : Work Host (Either Value Value)) := by
  rw [Script.sideOf]
  cases v.toEither? with
  | some e => exact h.pure e
  | none => exact h.malformed

theorem Composed.truthOf (v : Value) : P (truthOf v : Work Host Bool) := by
  cases v <;> first | exact h.pure _ | exact h.malformed

theorem Composed.countOf (v : Value) : P (countOf v : Work Host ℕ) := by
  cases v <;> first | exact h.pure _ | exact h.malformed

theorem Composed.lineOf (v : Value) : P (lineOf v : Work Host String) := by
  cases v <;> first | exact h.pure _ | exact h.malformed

/-- A layer that only goes on after a value. -/
theorem Composed.onward (l : Onward Host ε α β) {a : Action Host ε α} (ha : P a.evaluate)
    (hl : ∀ x, P (l.next x)) : P (l.apply a).evaluate := by
  rw [l.evaluate_apply]
  refine h.bind ha fun r => ?_
  cases r with
  | ok x => exact hl x
  | error e => exact h.pure _

/-- A layer that looks at failures. -/
theorem Composed.handling (l : Handling Host ε α ε' β) {a : Action Host ε α} (ha : P a.evaluate)
    (hok : ∀ x, P (l.after (.ok x))) (herror : ∀ e, P (l.after (.error e))) :
    P (l.apply a).evaluate := by
  rw [l.evaluate_apply]
  refine h.bind ha fun r => ?_
  cases r with
  | ok x => exact hok x
  | error e => exact herror e

/-- An action whose value is changed. -/
theorem Composed.mapped {a : Action Host ε α} (ha : P a.evaluate) {f : α → Work Host β}
    (hf : ∀ x, P (f x)) : P (a.map f).evaluate :=
  h.onward (.map .direct f) ha fun x => h.map (hf x) _

end Composed

section World

variable {P Q : {α : Type} → Work Host α → Prop} (h : Hereditary P Q)

include h

/-- A failure is looked at by what the channel takes for one, a value is not. -/
theorem Hereditary.outcomeOf (v : Value) :
    P (outcomeOf v : Work Host (Except Value Value)) := by
  rw [Script.outcomeOf]
  rcases v.toExcept? with _ | (e | a)
  · exact h.code.malformed
  · exact h.code.bind (h.failureOf e) fun _ => h.code.pure _
  · exact h.code.pure _

theorem Hereditary.takeSlot (name : String) : P (takeSlot name : Work Host Plan) :=
  h.code.bind (h.peekSlot name) fun p => h.code.bind (h.clear name) fun _ => h.code.pure p

/-- An operation logs, looks at a cell or sets one, or is only reckoned. -/
theorem Hereditary.prim (op : Prim) (vs : List Value) : P (op.apply vs : Work Host Value) := by
  unfold Prim.apply
  split
  · next v => exact h.code.bind (h.log v) fun _ => h.code.pure _
  · next name => exact h.cell name
  · next name v => exact h.code.bind (h.setCell name v) fun _ => h.code.pure _
  · exact h.code.ofChecked _

end World

/-- The code of functions has the one property, and the actions that it builds have the other. -/
structure Runner.Carries (P Q : {α : Type} → Work Host α → Prop) (r : Runner Plan Task) : Prop where
  term (env : Env) (t : Term) : P (r.term env t)
  expr (env : Env) (e : Expr) : Q (r.expr env e >>= Action.evaluate)

section Plan

variable {P Q : {α : Type} → Work Host α → Prop} {r : Runner Plan Task}

section Runner

variable (hr : r.Carries P Q)

include hr

theorem Runner.Carries.call (f : Closure Term) (v : Value) : P (r.call f v) := hr.term _ _

theorem Runner.Carries.call₂ (f : Closure₂ Term) (v w : Value) : P (r.call₂ f v w) := hr.term _ _

theorem Runner.Carries.build (k : Closure Expr) (v : Value) :
    Q (r.build k v >>= Action.evaluate) := hr.expr _ _

theorem Runner.Carries.testOf (h : Composed P) (f : Closure₂ Term) (v w : Value) :
    P (testOf r f v w) := h.bind (hr.call₂ f v w) h.truthOf

/-- Only functions can be applied. -/
theorem Runner.Carries.apply (h : Composed P) (g v : Value) : P (r.apply g v) := by
  cases g with
  | closure env x body => exact hr.call _ v
  | _ => exact h.malformed

end Runner

/-- The functions that `a` gives are values, called by the runner. -/
theorem evaluate_functions_seq (a b : Task) : ((Task.functions r a).seq b).evaluate =
    a.evaluate >>= fun
      | .ok g => (b.map (r.apply g)).evaluate
      | .error e => return .error e := by
  rw [Action.evaluate_seq, Task.functions, Action.evaluate_map, bind_assoc]
  refine bind_congr fun x => ?_
  cases x <;> rfl

/-- A round builds an action, evaluates it, and reads its value as a side. -/
theorem round_assembleStep (step : Closure Expr) (v : Value) :
    Action.round (Plan.assembleStep r step) v =
      (r.build step v >>= Action.evaluate) >>= (Onward.map .direct sideOf).after := by
  rw [Action.round, Plan.assembleStep, bind_map_left, bind_assoc]
  exact bind_congr fun a => (Onward.map .direct sideOf).evaluate_apply a

variable (h : Hereditary P Q) (hr : r.Carries P Q) {a b : Task}

include h hr

theorem Hereditary.assembleDelay (env : Env) (t : Term) (op : Delaying) :
    Q (Plan.assembleDelay r env t op).evaluate := by
  cases op with
  | work => exact h.evaluated (h.code.map (hr.term env t) _)
  | fallible => exact h.evaluated (h.code.bind (hr.term env t) h.outcomeOf)

/-- The function of a layer is called on the value, or on the failure. -/
theorem Hereditary.assembleMap (ha : Q a.evaluate) (f : Closure Term) (op : Mapping) :
    Q (Plan.assembleMap r a f op).evaluate := by
  have hcall : ∀ v, Q (r.call f v) := fun v => h.evaluated (hr.call f v)
  have hfail : ∀ v, Q (r.call f v >>= Script.failureOf) :=
    fun v => h.evaluated (h.code.bind (hr.call f v) h.failureOf)
  cases op with
  | map form => cases form <;> exact h.action.mapped ha hcall
  | recover form =>
    have hlayer : Q ((Handling.recover form (r.call f)).apply a).evaluate :=
      h.action.handling _ ha (fun _ => h.action.pure _) fun e => h.action.map (hcall e) _
    cases form <;> exact hlayer
  | adapt =>
    exact h.action.handling (.adapt fun e => r.call f e >>= Script.failureOf) ha
      (fun _ => h.action.pure _) fun e => h.action.map (hfail e) _
  | mapError =>
    exact h.action.handling (.mapError fun e => r.call f e >>= Script.failureOf) ha
      (fun _ => h.action.pure _) fun e => h.action.map (hfail e) _

omit hr in
/-- These layers have no code of their own. -/
theorem Hereditary.assembleWrap (ha : Q a.evaluate) (op : Wrapping) :
    Q (Plan.assembleWrap a op).evaluate := by
  cases op with
  | discard =>
    have hdiscard : Q (Onward.discard.apply a).evaluate :=
      h.action.onward _ ha fun _ => h.action.pure _
    exact h.action.mapped hdiscard fun _ => h.action.pure _
  | observe form =>
    have hobserve : Q ((Handling.observe form).apply a).evaluate :=
      h.action.handling _ ha (fun _ => h.action.pure _) fun _ => h.action.pure _
    cases form <;> exact h.action.mapped hobserve fun _ => h.action.pure _
  | containPanic => exact h.containPanic ha

/-- A continuation builds the action that is evaluated next, after the value or the failure. -/
theorem Hereditary.assembleChain (ha : Q a.evaluate) (k : Closure Expr) (op : Chaining) :
    Q (Plan.assembleChain r a k op).evaluate := by
  cases op with
  | bind form | andThen form =>
    cases form <;> exact h.action.onward (.bind .direct (r.build k)) ha (hr.build k)
  | tryCatch form =>
    cases form <;> exact h.action.handling (.tryCatch .direct (r.build k)) ha
      (fun _ => h.action.pure _) (hr.build k)

/-- The second operand comes after the first, if at all. -/
theorem Hereditary.assembleJoin (ha : Q a.evaluate) (hb : Q b.evaluate) (op : Joining) :
    Q (Plan.assembleJoin r a b op).evaluate := by
  cases op with
  | zip form =>
    have hzip : Q ((Onward.zip .direct b).apply a).evaluate :=
      h.action.onward _ ha fun _ => h.action.mapped hb fun _ => h.action.pure _
    cases form <;> exact h.action.mapped hzip fun _ => h.action.pure _
  | seqLeft =>
    exact h.action.onward (.seqLeft b) ha fun _ => h.action.mapped hb fun _ => h.action.pure _
  | seqRight =>
    exact h.action.onward (.seqRight b) ha fun _ => h.action.mapped hb fun _ => h.action.pure _
  | followedBy form => cases form <;> exact h.action.onward (.followedBy .direct b) ha fun _ => hb
  | seq form =>
    have hseq : Q ((Task.functions r a).seq b).evaluate := by
      rw [evaluate_functions_seq]
      refine h.action.bind ha fun x => ?_
      cases x with
      | ok g => exact h.action.mapped hb fun v => h.evaluated (hr.apply h.code g v)
      | error e => exact h.action.pure _
    cases form <;> exact hseq
  | orElse => exact h.action.handling (.orElse b) ha (fun _ => h.action.pure _) fun _ => hb

theorem Hereditary.zipWith (ha : Q a.evaluate) (hb : Q b.evaluate) (f : Closure₂ Term) :
    Q (a.zipWith b (r.call₂ f)).evaluate :=
  h.action.onward (.zipWith .direct b (r.call₂ f)) ha fun x =>
    h.action.mapped hb fun y => h.evaluated (hr.call₂ f x y)

theorem Hereditary.assembleStep (step : Closure Expr) (v : Value) :
    Q (Action.round (Plan.assembleStep r step) v) := by
  rw [round_assembleStep]
  refine h.action.bind (hr.build step v) fun x => ?_
  cases x with
  | ok w => exact h.action.map (h.action.sideOf w) _
  | error e => exact h.action.pure _

/-- A loop is its rounds, and one note at its end. -/
theorem Hereditary.assembleLoop (seed : Value) (step : Closure Expr) :
    Q (Action.loop seed (Plan.assembleStep r step)).evaluate := by
  rw [Action.evaluate_loop]
  -- the rounds go on for as long as they like: that they may is part of what is hereditary
  refine h.action.bind (h.iterate (fun v => ?_) seed) fun x =>
    h.action.bind (h.loopEnded x.1 x.2) fun _ => h.action.pure _
  refine h.action.bind (h.assembleStep hr step v) fun x => ?_
  rcases x with e | (w | w) <;> exact h.action.pure _

/-- **The action of a plan has the property.** -/
theorem Plan.hereditary (p : Plan) : Q (p.assemble r).evaluate := by
  -- on the plan; code inside functions is not a part of it, and is carried by the runner
  induction p with
  | value form v | failure form e => cases form <;> exact h.action.pure _
  | outcome form o => cases form <;> cases o <;> exact h.action.pure _
  | putLine line => exact h.action.mapped (h.action.map (h.print _) _) fun _ => h.action.pure _
  | getLine =>
    have hline : Q (Action.getLine : Action Host Value String).evaluate :=
      h.action.bind h.takeLine fun _ => h.action.pure _
    exact h.action.mapped hline fun _ => h.action.pure _
  | sleep => exact h.action.mapped (h.action.map (h.action.pure ()) _) fun _ => h.action.pure _
  | delay op env t => exact h.assembleDelay hr env t op
  | defer env e =>
    rw [assemble, Action.evaluate_defer]
    exact hr.expr env e
  | map op p f ih => exact h.assembleMap hr ih f op
  | mapConst p v ih => exact h.action.onward (.mapConst v) ih fun _ => h.action.pure _
  | wrap op p ih => exact h.assembleWrap ih op
  | chain op p k ih => exact h.assembleChain hr ih k op
  | join op p q ihp ihq => exact h.assembleJoin hr ihp ihq op
  | zipWith form p q f ihp ihq => cases form <;> exact h.zipWith hr ihp ihq f
  | loop form seed step => cases form <;> exact h.assembleLoop hr seed step

end Plan

section Code

variable {P Q : {α : Type} → Work Host α → Prop} {r : Runner Plan Task} (h : Hereditary P Q)

include h

theorem Hereditary.perform {a : Task} (ha : Q a.evaluate) :
    P (Context.perform a : Work Host Value) := h.code.map (h.run ha) _

/-- What is held is read for its kind while the action is built. -/
theorem Hereditary.ofHolding (op : Holding) (v : Value) : P (Plan.ofHolding op v) := by
  cases op with
  | value form => exact h.code.pure _
  | failure form => exact h.code.map (h.failureOf v) _
  | outcome form => exact h.code.map (h.outcomeOf v) _
  | putLine => exact h.code.bind (h.code.lineOf v) fun _ => h.code.pure _
  | sleep => exact h.code.bind (h.code.countOf v) fun _ => h.code.pure _

/-- Repeated building fills the slot and builds the next plan, by induction on how often. -/
theorem Hereditary.stepwise (name : String) {step : Int64 → Work Host Plan}
    (hstep : ∀ i, P (step i)) (times : ℕ) : ∀ index p, P (stepwise name step times index p) := by
  induction times with
  | zero => exact fun index p => h.code.pure p
  | succ times ih =>
    intro index p
    refine h.code.bind (h.fill name p) fun _ => ?_
    exact h.code.bind (hstep _) fun q => ih (index + 1) q

mutual

/-- **Terms have the property**; the recursion is on them, with lists and blocks of terms. -/
theorem Term.hereditary (hr : r.Carries P Q) (env : Env) : (t : Term) → P (Term.eval r env t)
  | .unit | .bool _ | .int _ | .text _ | .fn _ _ => h.code.pure _
  | .var x => by
    rw [Term.eval]
    cases env.lookup x with
    | some v => exact h.code.pure v
    | none => exact h.code.malformed
  | .bind x t u => h.code.bind (Term.hereditary hr env t) fun v =>
      Term.hereditary hr ((x, v) :: env) u
  | .call f a => h.code.bind (Term.hereditary hr env f) fun g =>
      h.code.bind (Term.hereditary hr env a) fun v => hr.apply h.code g v
  | .block ts => Term.hereditary_block hr env ts
  | .cond c t u => by
    refine h.code.bind (Term.hereditary hr env c) fun v =>
      h.code.bind (h.code.truthOf v) fun b => ?_
    cases b with
    | true => exact Term.hereditary hr env t
    | false => exact Term.hereditary hr env u
  | .cases t x a y b => by
    refine h.code.bind (Term.hereditary hr env t) fun v => ?_
    rcases v.side? with _ | (w | w)
    · exact h.code.malformed
    · exact Term.hereditary hr ((y, w) :: env) b
    · exact Term.hereditary hr ((x, w) :: env) a
  | .prim op args => h.code.bind (Term.hereditary_all hr env args) fun vs => h.prim op vs
  | .run e => h.code.bind (Expr.hereditary hr env e) fun p => h.perform (Plan.hereditary h hr p)
termination_by structural t => t

theorem Term.hereditary_all (hr : r.Carries P Q) (env : Env) :
    (ts : List Term) → P (Term.evalAll r env ts)
  | [] => h.code.pure _
  | t :: ts => h.code.bind (Term.hereditary hr env t) fun _ =>
      h.code.bind (Term.hereditary_all hr env ts) fun _ => h.code.pure _
termination_by structural ts => ts

theorem Term.hereditary_block (hr : r.Carries P Q) (env : Env) :
    (ts : List Term) → P (Term.evalBlock r env ts)
  | [] => h.code.pure _
  | [t] => Term.hereditary hr env t
  | t :: u :: ts => h.code.bind (Term.hereditary hr env t) fun _ =>
      Term.hereditary_block hr env (u :: ts)
termination_by structural ts => ts

/-- **To build expressions has the property**, with the terms that are computed on the way. -/
theorem Expr.hereditary (hr : r.Carries P Q) (env : Env) : (e : Expr) → P (Expr.build r env e)
  | .slot name => h.takeSlot name
  | .cond c a b => by
    refine h.code.bind (Term.hereditary hr env c) fun v =>
      h.code.bind (h.code.truthOf v) fun x => ?_
    cases x with
    | true => exact Expr.hereditary hr env a
    | false => exact Expr.hereditary hr env b
  | .bind x t e => h.code.bind (Term.hereditary hr env t) fun v =>
      Expr.hereditary hr ((x, v) :: env) e
  | .after t e => h.code.bind (Term.hereditary hr env t) fun _ => Expr.hereditary hr env e
  | .cases t x a y b => by
    refine h.code.bind (Term.hereditary hr env t) fun v => ?_
    rcases v.side? with _ | (w | w)
    · exact h.code.malformed
    · exact Expr.hereditary hr ((y, w) :: env) b
    · exact Expr.hereditary hr ((x, w) :: env) a
  | .repeated times name first step => by
    refine h.code.bind (Term.hereditary hr env times) fun v =>
      h.code.bind (h.code.countOf v) fun n => ?_
    refine h.code.bind (Expr.hereditary hr env first) fun p =>
      h.stepwise name (fun i => ?_) n 0 p
    exact Expr.hereditary hr (("i", .int i) :: env) step
  | .absent => h.code.malformed
  | .getLine => h.code.pure _
  | .hold op t => h.code.bind (Term.hereditary hr env t) fun v => h.ofHolding op v
  | .delay _ _ | .defer _ => h.code.pure _
  | .map _ e _ _ | .wrap _ e | .chain _ e _ _ =>
    h.code.bind (Expr.hereditary hr env e) fun _ => h.code.pure _
  | .mapConst e t => h.code.bind (Expr.hereditary hr env e) fun _ =>
      h.code.bind (Term.hereditary hr env t) fun _ => h.code.pure _
  | .join _ a b | .zipWith _ a b _ _ _ => h.code.bind (Expr.hereditary hr env a) fun _ =>
      h.code.bind (Expr.hereditary hr env b) fun _ => h.code.pure _
  | .loop _ seed _ _ => h.code.bind (Term.hereditary hr env seed) fun _ => h.code.pure _
termination_by structural e => e

end

/-- **The code of runners has the property**, however deep its calls may nest. -/
theorem Hereditary.within (depth : ℕ) : (Runner.within depth : Runner Plan Task).Carries P Q := by
  -- at depth zero there are no calls, and below a call its code is run one level deeper
  induction depth with
  | zero => exact ⟨fun _ _ => h.code.giveUp, fun _ _ => h.action.giveUp⟩
  | succ depth ih =>
    refine ⟨fun env t => Term.hereditary h ih env t, fun env e => ?_⟩
    have hexpr : (Runner.within (depth + 1)).expr env e >>= Action.evaluate =
        e.build (Runner.within depth) env >>= fun p : Plan =>
          (p.assemble (Runner.within depth)).evaluate := bind_map_left _ _ _
    -- the plan is built by code, and evaluated as an action
    rw [hexpr]
    exact h.action.bind (h.evaluated (Expr.hereditary h ih env e)) (Plan.hereditary h ih)

end Code

section Session

variable {P Q : {α : Type} → Work Host α → Prop} {r : Runner Plan Task} (h : Hereditary P Q)
  (hr : r.Carries P Q)

include h hr

/-- What is done with an action that a slot holds. -/
theorem Hereditary.takeTask (name : String) {f : Task → Work Host α}
    (hf : ∀ a : Task, Q a.evaluate → P (f a)) : P (takeTask r name >>= f) := by
  rw [Script.takeTask, bind_map_left]
  exact h.code.bind (h.takeSlot name) fun p => hf _ (Plan.hereditary h hr p)

omit hr in
/-- Two actions that are run, and their outcomes compared. -/
theorem Hereditary.agreeBy {a b : Task} (ha : Q a.evaluate) (hb : Q b.evaluate)
    {valueEq errorEq : Value → Value → Work Host Bool} (hv : ∀ v w, P (valueEq v w))
    (he : ∀ v w, P (errorEq v w)) : P (a.agreeBy b valueEq errorEq) := by
  refine h.code.bind (h.run ha) fun x => h.code.bind (h.run hb) fun y => ?_
  rcases x with e | v <;> rcases y with f | w
  · exact he e f
  · exact h.code.pure _
  · exact h.code.pure _
  · exact hv v w

/-- What is shown of an expression is built first. -/
theorem Hereditary.exprLayout (e : Expr) : P (exprLayout r e) := by
  have hbuild : ∀ e : Expr, P (e.build r []) := Expr.hereditary h hr []
  unfold Script.exprLayout
  split
  · exact h.code.bind (hbuild _) fun p => h.code.bind (hbuild _) fun q => h.code.pure _
  · exact h.code.bind (hbuild _) fun p => h.code.pure _
  · exact h.code.bind (hbuild _) fun p => h.code.pure _

/-- **A step of a session has the property.** -/
theorem Step.hereditary (step : Step) : P (step.perform r) := by
  cases step with
  | build name e =>
    exact h.code.bind (Expr.hereditary h hr [] e) fun p =>
      h.code.bind (h.fill name p) fun _ => h.code.pure _
  | run name =>
    exact h.takeTask hr name fun a ha => h.code.bind (h.run ha) fun _ => h.code.pure _
  | runThen name f =>
    refine h.takeTask hr name fun a ha => ?_
    exact h.code.bind (h.code.bind (h.run ha) fun x => hr.call f _) fun _ => h.code.pure _
  | display name spread => exact h.code.bind (h.peekSlot name) fun p => h.code.pure _
  | displayExpr e => exact h.code.bind (h.exprLayout hr e) fun l => h.code.pure _
  | agree l r' =>
    refine h.takeTask hr l fun a ha => h.takeTask hr r' fun b hb => ?_
    exact h.code.bind (h.agreeBy ha hb (fun _ _ => h.code.pure _) fun _ _ => h.code.pure _)
      fun _ => h.code.pure _
  | agreeBy l r' valueEq errorEq =>
    refine h.takeTask hr l fun a ha => h.takeTask hr r' fun b hb => ?_
    exact h.code.bind (h.agreeBy ha hb (hr.testOf h.code valueEq) (hr.testOf h.code errorEq))
      fun _ => h.code.pure _
  | drop name => exact h.code.bind (h.takeSlot name) fun _ => h.code.pure _
  | eval t => exact h.code.bind (Term.hereditary h hr [] t) fun _ => h.code.pure _

end Session

end Deferral.Script
