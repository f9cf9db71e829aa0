import Deferral.Proofs.Building
import Deferral.Proofs.Mirrors

/-!
# The forms of an operation are interchangeable

An operation does the same in the form that is generic over carriers as in the direct form,
though it may build another action. So it may stand in either form wherever it stands: code
does what its direct form does, by induction on the code and on how deep calls nest, and so
does any other code with that direct form.

* `formsAgree`: **the two forms of each operation** are the same work, on every host.
* `Term.mirrors`, `Expr.mirrors`, `reflects_within`: code mirrors its direct form.
* `Step.mirrors`, `ending_eq`: a step of a session, and so any two steps with one direct form.
* `forms_interchange`: **the forms are interchangeable**, everywhere in a session.
-/

namespace Deferral

/-- Each operation that has two forms is the same work in both of them, whatever it is given. -/
structure FormsAgree (σ ε : Type) [Tracing σ] : Prop where
  ofValue {α : Type} (x : α) :
    (Zippable.ofValue σ x : Action σ ε α).evaluate = (Action.pure x).evaluate
  throw {α : Type} (e : ε) :
    (Recoverable.throw σ e : Action σ ε α).evaluate = (Action.failed e).evaluate
  ofExcept {α : Type} (r : Except ε α) :
    (Recoverable.ofExcept σ r : Action σ ε α).evaluate = (Action.ofExcept r).evaluate
  map {α β : Type} (a : Action σ ε α) (f : α → Work σ β) :
    (Mappable.map (σ := σ) a f : Action σ ε β).evaluate = (a.map f).evaluate
  zipWith {α β γ : Type} (a : Action σ ε α) (b : Action σ ε β) (f : α → β → Work σ γ) :
    (Zippable.zipWith (σ := σ) a b f : Action σ ε γ).evaluate = (a.zipWith b f).evaluate
  zip {α β : Type} (a : Action σ ε α) (b : Action σ ε β) :
    (Zippable.zip (σ := σ) a b : Action σ ε (α × β)).evaluate = (a.zip b).evaluate
  seq {α β : Type} (f : Action σ ε (α → Work σ β)) (a : Action σ ε α) :
    (Zippable.seq (σ := σ) f a : Action σ ε β).evaluate = (f.seq a).evaluate
  bind {α β : Type} (a : Action σ ε α) (k : α → Work σ (Action σ ε β)) :
    (Chainable.bind (σ := σ) a k : Action σ ε β).evaluate = (a.bind k).evaluate
  andThen {α β : Type} (a : Action σ ε α) (k : α → Work σ (Action σ ε β)) :
    (Chainable.andThen (σ := σ) a k : Action σ ε β).evaluate = (a.andThen k).evaluate
  followedBy {α β : Type} (a : Action σ ε α) (b : Action σ ε β) :
    (Chainable.followedBy (σ := σ) a b : Action σ ε β).evaluate = (a.followedBy b).evaluate
  loop {τ β : Type} (seed : τ) (step : τ → Work σ (Action σ ε (Either τ β))) :
    (Chainable.loop (σ := σ) seed step : Action σ ε β).evaluate = (Action.loop seed step).evaluate
  observe {α : Type} (a : Action σ ε α) :
    (Recoverable.observe σ a : Action σ ε (Except ε α)).evaluate = a.observe.evaluate
  tryCatch {α : Type} (a : Action σ ε α) (h : ε → Work σ (Action σ ε α)) :
    (Recoverable.tryCatch (σ := σ) a h : Action σ ε α).evaluate = (a.tryCatch h).evaluate
  recover {α : Type} (a : Action σ ε α) (h : ε → Work σ α) :
    (Recoverable.recover (σ := σ) a h : Action σ ε α).evaluate = (a.recover h).evaluate
  /-- To adapt a failure is to change it. -/
  adapt {α : Type} (a : Action σ ε α) (f : ε → Work σ ε) :
    (Recoverable.adapt (σ := σ) a f : Action σ ε α).evaluate = (a.mapError f).evaluate
  /-- To have another action in place of a failed one is to handle the failure by it. -/
  orElse {α : Type} (a b : Action σ ε α) :
    (Recoverable.orElse (σ := σ) a b : Action σ ε α).evaluate =
      (a.tryCatch fun _ => return b).evaluate
  /-- The other action is run only after a failure. -/
  orElse_run {α : Type} (a b : Action σ ε α) (n : ℕ) (s : σ) :
    (Recoverable.orElse (σ := σ) a b : Action σ ε α).evaluate n s = match a.evaluate n s with
      | .value (.ok x) s' => .value (.ok x) s'
      | .value (.error _) s' => b.evaluate n s'
      | .panic p s' => .panic p s'
      | .exhausted => .exhausted

/-- **The two forms of each operation** are the same work. -/
theorem formsAgree (σ ε : Type) [Tracing σ] : FormsAgree σ ε where
  ofValue _ := rfl
  throw _ := rfl
  ofExcept r := by cases r <;> rfl
  map _ _ := rfl
  zipWith _ _ _ := rfl
  zip _ _ := rfl
  seq _ _ := rfl
  bind _ _ := rfl
  andThen _ _ := rfl
  followedBy _ _ := rfl
  loop _ _ := rfl
  observe _ := rfl
  tryCatch _ _ := rfl
  -- the generic form is made of other operations, and both are layers that do the same
  recover a h := by
    have hgeneric := (Handling.recover .generic h).evaluate_apply a
    have hdirect := (Handling.recover .direct h).evaluate_apply a
    exact hgeneric.trans ((bind_congr fun r => by cases r <;> rfl).trans hdirect.symm)
  adapt a f := by
    have hgeneric := (Handling.adapt f).evaluate_apply a
    have hdirect := (Handling.mapError f).evaluate_apply a
    exact hgeneric.trans ((bind_congr fun r => by cases r <;> rfl).trans hdirect.symm)
  orElse _ _ := rfl
  orElse_run a b n s := by
    have h := (Handling.orElse b).evaluate_apply a
    change ((Handling.orElse b).apply a).evaluate n s = _
    rw [h, Work.bind_run]
    rcases a.evaluate n s with ⟨e | x, s'⟩ | ⟨p, s'⟩ | _ <;> rfl

namespace Script

variable {α α' : Type}

section Code

variable {r r' : Runner Plan Task}

/-- The notes of a run are the same in both forms. -/
theorem mirrors_run {R : α → α' → Prop} {a : Action Host Value α} {a' : Action Host Value α'}
    (ha : Tasks R a a') : Mirrors (Outcomes R) a.run a'.run := by
  refine (mirrors_emit _).bind fun _ _ _ => (mirrors_emit _).bind fun _ _ _ => ?_
  -- the span is left in both, whatever happens in it
  refine Mirrors.always (ha.bind ?_) (World.direct_note .exit)
  rintro _ _ (hx | e)
  · exact mirrors_pure (.ok hx)
  · exact (mirrors_emit _).bind fun _ _ _ => mirrors_pure (.error e)

/-- To run a plan inside code mirrors that of its direct form. -/
theorem mirrors_perform (hr : r.Reflects r') (p : Plan) :
    Mirrors Value.Reflects (Context.perform (Context.ready r p) : Work Host Value)
      (Context.perform (Context.ready r' p.direct)) := by
  refine (mirrors_run (p.mirrors hr)).map ?_
  rintro _ _ (rfl | e) <;> rfl

theorem mirrors_ofHolding (op : Holding) (v : Value) :
    Mirrors Plan.Reflects (Plan.ofHolding op v) (Plan.ofHolding op.direct v.direct) := by
  cases op with
  | value form => exact mirrors_pure rfl
  | failure form => exact (mirrors_failureOf v).map_image fun _ => rfl
  | outcome form =>
    refine (mirrors_outcomeOf v).map ?_
    rintro _ _ (rfl | e) <;> rfl
  | putLine =>
    refine (mirrors_lineOf v).bind ?_
    rintro line _ rfl
    exact mirrors_pure rfl
  | sleep => exact (mirrors_countOf v).bind fun _ _ _ => mirrors_pure rfl

/-- Repeated building, by induction on how often. -/
theorem mirrors_stepwise (name : String) {step step' : Int64 → Work Host Plan}
    (h : ∀ i, Mirrors Plan.Reflects (step i) (step' i)) (times : ℕ) : ∀ index p,
    Mirrors Plan.Reflects (stepwise name step times index p)
      (stepwise name step' times index p.direct) := by
  induction times with
  | zero => exact fun index p => mirrors_pure rfl
  | succ times ih =>
    intro index p
    refine (mirrors_modify (World.direct_fill name p)).bind fun _ _ _ => ?_
    exact (h _).bind_image fun q => ih (index + 1) q

mutual

/-- **A term** mirrors its direct form; by recursion on it, with code inside functions left to the
runner. -/
theorem Term.mirrors (hr : r.Reflects r') (env : Env) : (t : Term) →
    Mirrors Value.Reflects (Term.eval r env t) (Term.eval r' (Value.directScope env) t.direct)
  | .unit | .bool _ | .int _ | .text _ | .fn _ _ => mirrors_pure rfl
  | .var x => by
    rw [Term.direct, Term.eval, Term.eval, lookup_directScope]
    cases env.lookup x with
    | some v => exact mirrors_pure rfl
    | none => exact mirrors_malformed
  | .bind x t u =>
    (Term.mirrors hr env t).bind_image fun v => Term.mirrors hr ((x, v) :: env) u
  | .call f a => (Term.mirrors hr env f).bind_image fun g =>
      (Term.mirrors hr env a).bind_image fun v => hr.apply g v
  | .block ts => Term.mirrors_block hr env ts
  | .cond c t u => by
    refine (Term.mirrors hr env c).bind_image fun v => (mirrors_truthOf v).bind ?_
    rintro b _ rfl
    cases b with
    | true => exact Term.mirrors hr env t
    | false => exact Term.mirrors hr env u
  | .cases t x a y b => by
    refine (Term.mirrors hr env t).bind_image fun v => ?_
    rw [Value.side?_direct]
    rcases v.side? with _ | (w | w)
    · exact mirrors_malformed
    · exact Term.mirrors hr ((y, w) :: env) b
    · exact Term.mirrors hr ((x, w) :: env) a
  | .prim op args => (Term.mirrors_all hr env args).bind_image fun vs => mirrors_prim op vs
  | .run e => (Expr.mirrors hr env e).bind_image fun p => mirrors_perform hr p
termination_by structural t => t

theorem Term.mirrors_all (hr : r.Reflects r') (env : Env) : (ts : List Term) →
    Mirrors (fun vs vs' => vs' = Value.directAll vs) (Term.evalAll r env ts)
      (Term.evalAll r' (Value.directScope env) (Term.directAll ts))
  | [] => mirrors_pure rfl
  | t :: ts => (Term.mirrors hr env t).bind_image fun _ =>
      (Term.mirrors_all hr env ts).bind_image fun _ => mirrors_pure rfl
termination_by structural ts => ts

theorem Term.mirrors_block (hr : r.Reflects r') (env : Env) : (ts : List Term) →
    Mirrors Value.Reflects (Term.evalBlock r env ts)
      (Term.evalBlock r' (Value.directScope env) (Term.directAll ts))
  | [] => mirrors_pure rfl
  | [t] => Term.mirrors hr env t
  | t :: u :: ts => (Term.mirrors hr env t).bind fun _ _ _ => Term.mirrors_block hr env (u :: ts)
termination_by structural ts => ts

/-- **To build an expression** mirrors building its direct form. -/
theorem Expr.mirrors (hr : r.Reflects r') (env : Env) : (e : Expr) →
    Mirrors Plan.Reflects (Expr.build r env e) (Expr.build r' (Value.directScope env) e.direct)
  | .slot name => mirrors_takeSlot name
  | .cond c a b => by
    refine (Term.mirrors hr env c).bind_image fun v => (mirrors_truthOf v).bind ?_
    rintro x _ rfl
    cases x with
    | true => exact Expr.mirrors hr env a
    | false => exact Expr.mirrors hr env b
  | .bind x t e =>
    (Term.mirrors hr env t).bind_image fun v => Expr.mirrors hr ((x, v) :: env) e
  | .after t e => (Term.mirrors hr env t).bind fun _ _ _ => Expr.mirrors hr env e
  | .cases t x a y b => by
    refine (Term.mirrors hr env t).bind_image fun v => ?_
    rw [Value.side?_direct]
    rcases v.side? with _ | (w | w)
    · exact mirrors_malformed
    · exact Expr.mirrors hr ((y, w) :: env) b
    · exact Expr.mirrors hr ((x, w) :: env) a
  | .repeated times name first step => by
    refine (Term.mirrors hr env times).bind_image fun v => (mirrors_countOf v).bind ?_
    rintro n _ rfl
    refine (Expr.mirrors hr env first).bind_image fun p => ?_
    exact mirrors_stepwise name (fun i => Expr.mirrors hr (("i", .int i) :: env) step) n 0 p
  | .absent => mirrors_malformed
  | .getLine => mirrors_pure rfl
  | .hold op t => (Term.mirrors hr env t).bind_image fun v => mirrors_ofHolding op v
  | .delay _ _ | .defer _ => mirrors_pure rfl
  | .map _ e _ _ | .wrap _ e | .chain _ e _ _ =>
    (Expr.mirrors hr env e).bind_image fun _ => mirrors_pure rfl
  | .mapConst e t => (Expr.mirrors hr env e).bind_image fun _ =>
      (Term.mirrors hr env t).bind_image fun _ => mirrors_pure rfl
  | .join _ a b | .zipWith _ a b _ _ _ => (Expr.mirrors hr env a).bind_image fun _ =>
      (Expr.mirrors hr env b).bind_image fun _ => mirrors_pure rfl
  | .loop _ seed _ _ => (Term.mirrors hr env seed).bind_image fun _ => mirrors_pure rfl
termination_by structural e => e

end

/-- The code of functions mirrors, however deep its calls may nest. -/
theorem reflects_within (depth : ℕ) :
    (Runner.within depth : Runner Plan Task).Reflects (Runner.within depth) := by
  induction depth with
  | zero => exact ⟨fun _ _ => mirrors_giveUp, fun _ _ => mirrors_giveUp⟩
  | succ depth ih =>
    exact ⟨fun env t => Term.mirrors ih env t,
      fun env e => (Expr.mirrors ih env e).map_image fun p => p.mirrors ih⟩

end Code

section Session

variable {r r' : Runner Plan Task}

theorem mirrors_takeTask (hr : r.Reflects r') (name : String) :
    Mirrors (Tasks Value.Reflects) (takeTask r name) (takeTask r' name) :=
  (mirrors_takeSlot name).map_image fun p => p.mirrors hr

theorem mirrors_testOf (hr : r.Reflects r') (f : Closure₂ Term) (v w : Value) :
    Mirrors Eq (testOf r f v w) (testOf r' f.directTerm v.direct w.direct) :=
  (hr.call₂ f v w).bind_image mirrors_truthOf

/-- Two actions that are run, and their outcomes compared. -/
theorem mirrors_agreeBy {a a' b b' : Task} (ha : Tasks Value.Reflects a a')
    (hb : Tasks Value.Reflects b b')
    {valueEq valueEq' errorEq errorEq' : Value → Value → Work Host Bool}
    (hv : ∀ v w, Mirrors Eq (valueEq v w) (valueEq' v.direct w.direct))
    (he : ∀ v w, Mirrors Eq (errorEq v w) (errorEq' v.direct w.direct)) :
    Mirrors Eq (a.agreeBy b valueEq errorEq) (a'.agreeBy b' valueEq' errorEq') := by
  refine (mirrors_run ha).bind fun x x' hx => (mirrors_run hb).bind fun y y' hy => ?_
  rcases hx with rfl | e <;> rcases hy with rfl | f
  · exact hv _ _
  · exact mirrors_pure rfl
  · exact mirrors_pure rfl
  · exact he e f

theorem mirrors_same (v w : Value) :
    Mirrors Eq (return v == w : Work Host Bool) (return v.direct == w.direct) :=
  mirrors_pure (Value.same_direct v w).symm

/-- The second answer is the direct form of the first, but for what an action looks like. -/
abbrev Answer.Reflects (x y : Answer) : Prop := y.unshown = x.direct

/-- **A step** mirrors the step in the direct form. -/
theorem Step.mirrors (hr : r.Reflects r') (step : Step) :
    Mirrors Answer.Reflects (step.perform r) (step.direct.perform r') := by
  cases step with
  | build name e =>
    refine (Expr.mirrors hr [] e).bind_image fun p => ?_
    exact (mirrors_modify (World.direct_fill name p)).bind fun _ _ _ => mirrors_pure rfl
  | run name =>
    refine (mirrors_takeTask hr name).bind fun a a' ha => (mirrors_run ha).bind ?_
    rintro _ _ (rfl | e) <;> exact mirrors_pure rfl
  | runThen name f =>
    refine (mirrors_takeTask hr name).bind fun a a' ha => ?_
    have hcalled : Mirrors Value.Reflects (a.runThen fun o => r.call f (.ofExcept o))
        (a'.runThen fun o => r'.call f.directTerm (.ofExcept o)) := by
      refine (mirrors_run ha).bind ?_
      rintro _ _ (rfl | e) <;> exact hr.call f _
    exact hcalled.bind_image fun _ => mirrors_pure rfl
  | display name spread => exact (mirrors_peekSlot name).bind fun _ _ _ => mirrors_pure rfl
  | displayExpr e =>
    -- what is shown depends on the form, but how it is come by does not
    obtain ⟨f, hf⟩ := exists_exprLayout_eq r e
    obtain ⟨f', hf'⟩ := exists_exprLayout_eq r' e.direct
    rw [direct, perform, perform, hf, hf', bind_map_left, bind_map_left]
    exact (Expr.mirrors hr [] e).bind fun _ _ _ => mirrors_pure rfl
  | agree left right =>
    refine (mirrors_takeTask hr left).bind fun a a' ha => ?_
    refine (mirrors_takeTask hr right).bind fun b b' hb => ?_
    refine (mirrors_agreeBy ha hb mirrors_same mirrors_same).bind ?_
    rintro x _ rfl
    exact mirrors_pure rfl
  | agreeBy left right valueEq errorEq =>
    refine (mirrors_takeTask hr left).bind fun a a' ha => ?_
    refine (mirrors_takeTask hr right).bind fun b b' hb => ?_
    refine (mirrors_agreeBy ha hb (mirrors_testOf hr valueEq) (mirrors_testOf hr errorEq)).bind ?_
    rintro x _ rfl
    exact mirrors_pure rfl
  | drop name => exact (mirrors_takeSlot name).bind fun _ _ _ => mirrors_pure rfl
  | eval t => exact (Term.mirrors hr [] t).bind_image fun _ => mirrors_pure rfl

/-- How a step ends, with the answer changed by `f` and the host by `g`. -/
def endingBy (f : Answer → Answer) (g : Host → Host) : Ending Host Answer → Ending Host Answer
  | .value a s => .value (f a) (g s)
  | .panic p s => .panic p (g s)
  | .exhausted => .exhausted

/-- How a step ends, up to forms. -/
abbrev directEnding : Ending Host Answer → Ending Host Answer := endingBy Answer.direct World.direct

/-- Endings that are alike have one direct form. -/
theorem Alike.directEnding_eq {x y : Ending Host Answer} (h : Alike Answer.Reflects x y) :
    directEnding x = endingBy Answer.unshown id y := by
  cases h with
  | value ha s => exact congrArg (fun a => Ending.value a s.direct) ha.symm
  | panic p s => rfl
  | exhausted => rfl

/-- Steps with one direct form do the same, from hosts with one direct form. -/
theorem ending_eq {w w' : Host} (hw : w.direct = w'.direct) {step step' : Step}
    (hstep : step.direct = step'.direct) (budget : ℕ) :
    directEnding (withRunner step.perform budget w) =
      directEnding (withRunner step'.perform budget w') := by
  have h := step.mirrors (reflects_within budget) budget w
  have h' := step'.mirrors (reflects_within budget) budget w'
  rw [← hw, ← hstep] at h'
  exact h.directEnding_eq.trans h'.directEnding_eq.symm

theorem reported_direct (ending : Option (Checked Answer)) (w : Host) :
    (World.reported ending w).1.direct =
      ⟨ending.map (Except.map Answer.direct), w.direct.journal.toList, w.direct.printed,
        w.direct.cells⟩ := by
  simp [World.reported, Report.direct, World.direct]

theorem reported_eq {w w' : Host} (hw : w.direct = w'.direct) {x x' : Option (Checked Answer)}
    (hx : x.map (Except.map Answer.direct) = x'.map (Except.map Answer.direct)) :
    (World.reported x w).1.direct = (World.reported x' w').1.direct ∧
      (World.reported x w).2.direct = (World.reported x' w').2.direct := by
  rw [reported_direct, reported_direct, hw, hx]
  exact ⟨rfl, hw⟩

/-- The reports on steps with one direct form, and the hosts after them. -/
theorem report_eq {w w' : Host} (hw : w.direct = w'.direct) {step step' : Step}
    (hstep : step.direct = step'.direct) (budget : ℕ) :
    (w.report budget (withRunner step.perform)).1.direct =
        (w'.report budget (withRunner step'.perform)).1.direct ∧
      (w.report budget (withRunner step.perform)).2.direct =
        (w'.report budget (withRunner step'.perform)).2.direct := by
  have hcleared : w.cleared.direct = w'.cleared.direct := by
    rw [World.direct_cleared, World.direct_cleared, hw]
  have h := ending_eq hcleared hstep budget
  rw [World.report, World.report, Work.runFrom, Work.runFrom]
  -- both steps end in the same way, in hosts with one direct form
  generalize withRunner step.perform budget w.cleared = y,
    withRunner step'.perform budget w'.cleared = y' at h
  cases y with
  | value a s =>
    cases y' with
    | value a' s' =>
      obtain ⟨ha, hs⟩ := Ending.value.inj h
      exact reported_eq hs (congrArg (fun a => some (Except.ok a : Checked Answer)) ha)
    | panic p' s' => cases h
    | exhausted => cases h
  | panic p s =>
    cases y' with
    | value a' s' => cases h
    | panic p' s' =>
      obtain ⟨rfl, hs⟩ := Ending.panic.inj h
      exact reported_eq hs rfl
    | exhausted => cases h
  | exhausted =>
    cases y' with
    | value a' s' => cases h
    | panic p' s' => cases h
    | exhausted => exact reported_eq hcleared rfl

/-- Sessions of steps with one direct form, from hosts with one direct form, by induction on the
steps. -/
theorem session_eq (budget : ℕ) (steps : List Step) : ∀ (steps' : List Step) (w w' : Host),
    w.direct = w'.direct → steps.map Step.direct = steps'.map Step.direct →
    (session budget w steps).map Report.direct = (session budget w' steps').map Report.direct := by
  induction steps with
  | nil =>
    intro steps' w w' _ hsteps
    cases steps' with
    | nil => rfl
    | cons step' steps' => cases hsteps
  | cons step steps ih =>
    intro steps' w w' hw hsteps
    cases steps' with
    | nil => cases hsteps
    | cons step' steps' =>
      obtain ⟨hstep, hsteps⟩ := List.cons.inj hsteps
      obtain ⟨hreport, hafter⟩ := report_eq hw hstep budget
      rw [session, session, List.map_cons, List.map_cons, hreport, ih _ _ _ hafter hsteps]

end Session

/-- **The forms are interchangeable.** On every host, whatever it is given, each operation is
the same work in both forms; to adapt a failure is to change it, and to have another action in
place of a failed one is to handle the failure by it. So two steps that are the same up to forms,
anywhere in their code, do the same from every state: they end in the same way, with values that
are the same up to forms, and so are the states that they leave. So are the reports on two
sessions of such steps. Values that are the same up to forms are shown alike. -/
theorem forms_interchange :
    (∀ (σ ε : Type) [Tracing σ], FormsAgree σ ε) ∧
    (∀ (budget : ℕ) (w w' : Host) (step step' : Step), w.direct = w'.direct →
      step.direct = step'.direct →
      directEnding (withRunner step.perform budget w) =
        directEnding (withRunner step'.perform budget w')) ∧
    (∀ (budget : ℕ) (w w' : Host) (steps steps' : List Step), w.direct = w'.direct →
      steps.map Step.direct = steps'.map Step.direct →
      (session budget w steps).map Report.direct = (session budget w' steps').map Report.direct) ∧
    ∀ v v' : Value, v.direct = v'.direct → v.layout = v'.layout := by
  refine ⟨fun σ ε _ => formsAgree σ ε,
    fun budget w w' step step' hw hstep => ending_eq hw hstep budget,
    fun budget w w' steps steps' hw hsteps => session_eq budget steps steps' w w' hw hsteps, ?_⟩
  intro v v' h
  rw [← v.layout_direct, h, v'.layout_direct]

/-- Logs the text of a failure on the way out, and recovers from it by its length. -/
def adapting (form : Form) (change : Mapping) : List Step :=
  [.build "a" (.map (.recover form)
      (.chain (.bind form) (.hold (.value form) (.int 1)) "x"
        (.map change (.hold (.failure form) (.text "no")) "e"
          (.block [.prim .log [.var "e"], .var "e"])))
      "e" (.prim .length [.var "e"])),
    .run "a"]

theorem forms_interchange_adapting :
    (adapting .generic .adapt).map Step.direct = (adapting .direct .mapError).map Step.direct ∧
    (session 3 (World.fresh true .values []) (adapting .generic .adapt)).map Report.direct =
      (session 3 (World.fresh true .values []) (adapting .direct .mapError)).map Report.direct ∧
    (session 3 (World.fresh true .values []) (adapting .direct .mapError)).map Report.journal =
      [[], [.traced (.span .trace "io.run"), .traced .enter, .logged (.text "no"),
        .traced .exit]] :=
  ⟨rfl, forms_interchange.2.2.1 3 _ _ _ _ rfl rfl, rfl⟩

end Script
end Deferral
