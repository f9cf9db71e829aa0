import Deferral.Proofs.Containment
import Deferral.Proofs.Direct

/-!
# Work in the direct form

`Mirrors R w w'` says that `w'` does in the direct form what `w` does: from the direct form of
a state it ends in the same way, in the direct form of the state that `w` has left, and their
values are related by `R`. `Tasks R a a'` says so of what two actions do.

Work mirrors other work if its parts do (`Mirrors.bind`, `mirrors_iterate`), and actions if
their layers do: an operation is one layer in each of its forms, and in what a layer does
(`Onward.next`, `Handling.after`) there is no form.

* `mirrors_prim`, `mirrors_takeSlot` and the like: what code does to the world.
* `tasks_onward`, `tasks_handling`, `tasks_containPanic`, `tasks_loop`: layers and loops.
* `Plan.mirrors`: **the action of a plan** mirrors that of the plan in the direct form, for
  runners whose code does (`Runner.Reflects`).
-/

namespace Deferral.Script

variable {α α' β β' τ τ' : Type}

/-- Two pieces of work end in the same way, the second in the direct form of the state in which
the first ends. -/
inductive Alike (R : α → β → Prop) : Ending Host α → Ending Host β → Prop where
  | value {a : α} {b : β} (h : R a b) (s : Host) : Alike R (.value a s) (.value b s.direct)
  | panic (p : Payload) (s : Host) : Alike R (.panic p s) (.panic p s.direct)
  | exhausted : Alike R .exhausted .exhausted

/-- The second work does in the direct form what the first does. -/
def Mirrors (R : α → β → Prop) (w : Work Host α) (w' : Work Host β) : Prop :=
  ∀ n s, Alike R (w n s) (w' n s.direct)

/-- The second value is the direct form of the first. -/
abbrev Value.Reflects (v v' : Value) : Prop := v' = v.direct

/-- Two outcomes have related values, or the second failure is the direct form of the first. -/
inductive Outcomes (R : α → β → Prop) : Except Value α → Except Value β → Prop where
  | ok {a : α} {b : β} (h : R a b) : Outcomes R (.ok a) (.ok b)
  | error (e : Value) : Outcomes R (.error e) (.error e.direct)

/-- The payloads are on the same side, and related. -/
inductive Sides (R : α → α' → Prop) (S : β → β' → Prop) : Either α β → Either α' β' → Prop where
  | left {a : α} {a' : α'} (h : R a a') : Sides R S (.left a) (.left a')
  | right {b : β} {b' : β'} (h : S b b') : Sides R S (.right b) (.right b')

/-- The evaluations of two actions mirror each other. -/
def Tasks (R : α → β → Prop) (a : Action Host Value α) (a' : Action Host Value β) : Prop :=
  Mirrors (Outcomes R) a.evaluate a'.evaluate

section Work

variable {R : α → α' → Prop} {S : β → β' → Prop} {Q : τ → τ' → Prop}
  {w : Work Host α} {w' : Work Host α'}

theorem mirrors_pure {a : α} {a' : α'} (h : R a a') : Mirrors R (pure a) (pure a') :=
  fun _ s => .value h s

theorem mirrors_panic (p : Payload) : Mirrors R (Work.panic p) (Work.panic p) :=
  fun _ s => .panic p s

theorem mirrors_malformed : Mirrors R malformed malformed := mirrors_panic _

theorem mirrors_giveUp : Mirrors R Work.giveUp Work.giveUp := fun _ _ => .exhausted

/-- What comes after related values. -/
theorem Mirrors.bind (hw : Mirrors R w w') {f : α → Work Host β} {f' : α' → Work Host β'}
    (hf : ∀ a a', R a a' → Mirrors S (f a) (f' a')) : Mirrors S (w >>= f) (w' >>= f') := by
  intro n s
  have h := hw n s
  rw [Work.bind_run, Work.bind_run]
  generalize w n s = x, w' n s.direct = y at h
  cases h with
  | value h s₁ => exact hf _ _ h n s₁
  | panic p s₁ => exact .panic p s₁
  | exhausted => exact .exhausted

theorem Mirrors.map (hw : Mirrors R w w') {f : α → β} {f' : α' → β'}
    (hf : ∀ a a', R a a' → S (f a) (f' a')) : Mirrors S (f <$> w) (f' <$> w') := by
  rw [map_eq_pure_bind, map_eq_pure_bind]
  exact hw.bind fun a a' h => mirrors_pure (hf a a' h)

/-- Work that mirrors other work with the values changed by `g`, and what comes after it. -/
theorem Mirrors.bind_image {g : α → α'} (hw : Mirrors (fun a a' => a' = g a) w w')
    {f : α → Work Host β} {f' : α' → Work Host β'} (hf : ∀ a, Mirrors S (f a) (f' (g a))) :
    Mirrors S (w >>= f) (w' >>= f') := by
  refine hw.bind ?_
  rintro a _ rfl
  exact hf a

theorem Mirrors.map_image {g : α → α'} (hw : Mirrors (fun a a' => a' = g a) w w')
    {f : α → β} {f' : α' → β'} (hf : ∀ a, S (f a) (f' (g a))) :
    Mirrors S (f <$> w) (f' <$> w') := by
  refine hw.map ?_
  rintro a _ rfl
  exact hf a

theorem mirrors_modify {f f' : Host → Host} (h : ∀ s, (f s).direct = f' s.direct) :
    Mirrors Eq (modify f : Work Host PUnit) (modify f') := by
  intro n s
  change Alike Eq (.value PUnit.unit (f s)) (.value PUnit.unit (f' s.direct))
  rw [← h]
  exact .value rfl _

theorem mirrors_get : Mirrors (fun s s' => s' = s.direct) (get : Work Host Host) get := by
  intro n s
  refine .value ?_ s
  rfl

theorem mirrors_emit (t : Trace) : Mirrors Eq (emit t : Work Host Unit) (emit t) :=
  mirrors_modify fun s => s.direct_note t

/-- What is done after two pieces of work, also when they panic. -/
theorem Mirrors.always (hw : Mirrors R w w') {f : Host → Host}
    (h : ∀ s, (f s).direct = f s.direct) : Mirrors R (w.always f) (w'.always f) := by
  intro n s
  have hs := hw n s
  rw [Work.always, Work.always]
  generalize w n s = x, w' n s.direct = y at hs
  cases hs with
  | @value a b hv s₁ =>
    change Alike R (.value a (f s₁)) (.value b (f s₁.direct))
    rw [← h]
    exact .value hv (f s₁)
  | panic p s₁ =>
    change Alike R (.panic p (f s₁)) (.panic p (f s₁.direct))
    rw [← h]
    exact .panic p (f s₁)
  | exhausted => exact .exhausted

/-- Two loops whose rounds mirror each other take the same number of rounds. -/
theorem mirrors_iterate {round : τ → Work Host (Either τ α)}
    {round' : τ' → Work Host (Either τ' α')}
    (h : ∀ t t', Q t t' → Mirrors (Sides Q R) (round t) (round' t'))
    {t : τ} {t' : τ'} (ht : Q t t') :
    Mirrors (fun x y => R x.1 y.1 ∧ y.2 = x.2) (Work.iterate round t) (Work.iterate round' t') := by
  intro n s
  -- on the rounds that are allowed, which are as many on both sides
  have key : ∀ more done t t' s, Q t t' → Alike (fun x y => R x.1 y.1 ∧ y.2 = x.2)
      (Work.iterateFrom round n more done t s)
      (Work.iterateFrom round' n more done t' s.direct) := by
    intro more
    induction more with
    | zero => exact fun done t t' s _ => .exhausted
    | succ more ih =>
      intro done t t' s ht
      have hround := h t t' ht n s
      rw [Work.iterateFrom, Work.iterateFrom]
      generalize round t n s = x, round' t' n s.direct = y at hround
      cases hround with
      | value hside s₁ =>
        cases hside with
        | left ht => exact ih (done + 1) _ _ s₁ ht
        | right ha => exact .value ⟨ha, rfl⟩ s₁
      | panic p s₁ => exact .panic p s₁
      | exhausted => exact .exhausted
  exact key n 0 t t' s ht

end Work

section World

/-- The channel takes the same values for failures. -/
theorem mirrors_failureOf (v : Value) :
    Mirrors Value.Reflects (failureOf v) (failureOf v.direct) := by
  refine mirrors_get.bind_image fun s => ?_
  rw [show s.direct.channel = s.channel from rfl, Value.failure?_direct]
  cases s.channel.failure? v with
  | some e => exact mirrors_pure rfl
  | none => exact mirrors_malformed

theorem mirrors_outcomeOf (v : Value) :
    Mirrors (Outcomes Value.Reflects) (outcomeOf v) (outcomeOf v.direct) := by
  rw [outcomeOf, outcomeOf, Value.toExcept?_direct]
  rcases v.toExcept? with _ | (e | a)
  · exact mirrors_malformed
  · exact (mirrors_failureOf e).bind_image fun e => mirrors_pure (.error e)
  · exact mirrors_pure (.ok rfl)

theorem mirrors_sideOf (v : Value) :
    Mirrors (Sides Value.Reflects Value.Reflects) (sideOf v) (sideOf v.direct) := by
  rw [sideOf, sideOf, Value.toEither?_direct]
  rcases v.toEither? with _ | (w | w)
  · exact mirrors_malformed
  · exact mirrors_pure (.left rfl)
  · exact mirrors_pure (.right rfl)

theorem mirrors_truthOf (v : Value) : Mirrors Eq (truthOf v) (truthOf v.direct) := by
  cases v <;> first | exact mirrors_pure rfl | exact mirrors_malformed

theorem mirrors_countOf (v : Value) : Mirrors Eq (countOf v) (countOf v.direct) := by
  cases v <;> first | exact mirrors_pure rfl | exact mirrors_malformed

theorem mirrors_lineOf (v : Value) : Mirrors Eq (lineOf v) (lineOf v.direct) := by
  cases v <;> first | exact mirrors_pure rfl | exact mirrors_malformed

/-- The second plan is the direct form of the first. -/
abbrev Plan.Reflects (p p' : Plan) : Prop := p' = p.direct

theorem mirrors_peekSlot (name : String) :
    Mirrors Plan.Reflects (peekSlot name) (peekSlot name) := by
  refine mirrors_get.bind_image fun s => ?_
  rw [show s.direct.slots.lookup name = _ from lookup_map Plan.direct s.slots name]
  cases s.slots.lookup name with
  | some p => exact mirrors_pure rfl
  | none => exact mirrors_panic _

theorem mirrors_takeSlot (name : String) :
    Mirrors Plan.Reflects (takeSlot name) (takeSlot name) :=
  (mirrors_peekSlot name).bind fun _ _ hp =>
    (mirrors_modify (World.direct_clear name)).bind fun _ _ _ => mirrors_pure hp

/-- Operations on values mirror each other. -/
theorem mirrors_prim (op : Prim) (vs : List Value) :
    Mirrors Value.Reflects (op.apply vs) (op.apply (Value.directAll vs)) := by
  have hcompute : Mirrors Value.Reflects (Work.ofChecked (op.compute vs))
      (Work.ofChecked (op.compute (Value.directAll vs))) := by
    rw [compute_direct]
    cases op.compute vs with
    | ok v => exact mirrors_pure rfl
    | error p => exact mirrors_panic p
  fun_cases Prim.apply op vs
  case case1 v =>
    exact (mirrors_modify (World.direct_log v)).bind fun _ _ _ => mirrors_pure rfl
  case case2 cell =>
    exact mirrors_get.bind_image fun s => mirrors_pure (s.cell_direct cell)
  case case3 cell v =>
    exact (mirrors_modify (World.direct_setCell cell v)).bind fun _ _ _ => mirrors_pure rfl
  case case4 =>
    -- the direct form has as many values, so it leaves the world alone too
    unfold Prim.apply
    split
    all_goals simp_all

end World

/-- The code of functions mirrors, under the second runner, that under the first. -/
structure Runner.Reflects (r r' : Runner Plan Task) : Prop where
  term : ∀ env t, Mirrors Value.Reflects (r.term env t) (r'.term (Value.directScope env) t.direct)
  expr : ∀ env e,
    Mirrors (Tasks Value.Reflects) (r.expr env e) (r'.expr (Value.directScope env) e.direct)

section Layers

variable {R : α → α' → Prop} {S : β → β' → Prop} {a : Action Host Value α}
  {a' : Action Host Value α'}

/-- Layers that go on after a value, in any form, mirror each other if what comes next does. -/
theorem tasks_onward (l : Onward Host Value α β) (l' : Onward Host Value α' β') (ha : Tasks R a a')
    (h : ∀ x x', R x x' → Mirrors (Outcomes S) (l.next x) (l'.next x')) :
    Tasks S (l.apply a) (l'.apply a') := by
  rw [Tasks, l.evaluate_apply, l'.evaluate_apply]
  refine ha.bind ?_
  rintro _ _ (hx | e)
  · exact h _ _ hx
  · exact mirrors_pure (.error e)

/-- Layers that look at failures, in any form, mirror each other if what they do does. -/
theorem tasks_handling (l : Handling Host Value α Value β) (l' : Handling Host Value α' Value β')
    (ha : Tasks R a a')
    (hok : ∀ x x', R x x' → Mirrors (Outcomes S) (l.after (.ok x)) (l'.after (.ok x')))
    (herror : ∀ e : Value, Mirrors (Outcomes S) (l.after (.error e)) (l'.after (.error e.direct))) :
    Tasks S (l.apply a) (l'.apply a') := by
  rw [Tasks, l.evaluate_apply, l'.evaluate_apply]
  refine ha.bind ?_
  rintro _ _ (hx | e)
  · exact hok _ _ hx
  · exact herror e

/-- A function is called on related values. -/
theorem tasks_map (ha : Tasks R a a') {f : α → Work Host β} {f' : α' → Work Host β'}
    (hf : ∀ x x', R x x' → Mirrors S (f x) (f' x')) : Tasks S (a.map f) (a'.map f') :=
  tasks_onward (.map .direct f) (.map .direct f') ha fun x x' hx =>
    (hf x x' hx).map fun _ _ => .ok

/-- A panic is the same in both forms, and is contained alike. -/
theorem tasks_containPanic (ha : Tasks R a a') : Tasks R a.containPanic a'.containPanic := by
  intro n s
  have h := ha n s
  generalize hx : a.evaluate n s = x, hy : a'.evaluate n s.direct = y at h
  cases h with
  | value hr s₁ =>
    rw [Action.evaluate_containPanic_pure hx, Action.evaluate_containPanic_pure hy]
    exact .value hr s₁
  | panic p s₁ =>
    rw [Action.evaluate_containPanic_panic hx, Action.evaluate_containPanic_panic hy,
      ← World.direct_note]
    exact .value (.error _) _
  | exhausted =>
    rw [Action.evaluate_containPanic_exhausted hx, Action.evaluate_containPanic_exhausted hy]
    exact .exhausted

/-- Loops whose steps build actions that mirror each other. -/
theorem tasks_loop {step : Value → Work Host (Action Host Value (Either Value Value))}
    {step' : Value → Work Host (Action Host Value (Either Value Value))}
    (h : ∀ v, Mirrors (Tasks (Sides Value.Reflects Value.Reflects)) (step v) (step' v.direct))
    (seed : Value) :
    Tasks Value.Reflects (Action.loop seed step) (Action.loop seed.direct step') := by
  have hround : ∀ t t', Value.Reflects t t' →
      Mirrors (Sides Value.Reflects (Outcomes Value.Reflects))
      (Work.exceptRound (fun t => step t >>= Action.evaluate) t)
      (Work.exceptRound (fun t => step' t >>= Action.evaluate) t') := by
    rintro t _ rfl
    refine ((h t).bind fun _ _ ha => ha).bind ?_
    rintro _ _ (hx | e)
    · cases hx with
      | left hv => exact mirrors_pure (.left hv)
      | right hv => exact mirrors_pure (.right (.ok hv))
    · exact mirrors_pure (.right (.error e))
  rw [Tasks, Action.evaluate_loop, Action.evaluate_loop]
  refine (mirrors_iterate hround rfl).bind ?_
  rintro ⟨x, k⟩ ⟨y, k'⟩ ⟨hxy, hk⟩
  obtain rfl : k' = k := hk
  -- how a loop ended is told without what it ended with
  have hnote : Action.loopEnded y k' = Action.loopEnded x k' := by cases hxy <;> rfl
  rw [hnote]
  exact (mirrors_emit _).bind fun _ _ _ => mirrors_pure hxy

end Layers

section Plan

variable {r r' : Runner Plan Task} (hr : r.Reflects r')

include hr

theorem Runner.Reflects.call (f : Closure Term) (v : Value) :
    Mirrors Value.Reflects (r.call f v) (r'.call f.directTerm v.direct) := hr.term _ _

theorem Runner.Reflects.call₂ (f : Closure₂ Term) (v w : Value) :
    Mirrors Value.Reflects (r.call₂ f v w) (r'.call₂ f.directTerm v.direct w.direct) := hr.term _ _

theorem Runner.Reflects.build (k : Closure Expr) (v : Value) :
    Mirrors (Tasks Value.Reflects) (r.build k v) (r'.build k.directExpr v.direct) := hr.expr _ _

/-- Only functions can be applied, in either form. -/
theorem Runner.Reflects.apply (g v : Value) :
    Mirrors Value.Reflects (r.apply g v) (r'.apply g.direct v.direct) := by
  cases g with
  | closure env x body => exact hr.call ⟨env, x, body⟩ v
  | _ => exact mirrors_malformed

theorem tasks_assembleDelay (env : Env) (t : Term) (op : Delaying) :
    Tasks Value.Reflects (Plan.assembleDelay r env t op)
      (Plan.assembleDelay r' (Value.directScope env) t.direct op) := by
  have hterm := hr.term env t
  cases op with
  | work => exact hterm.map fun _ _ => .ok
  | fallible => exact hterm.bind_image mirrors_outcomeOf

theorem tasks_assembleMap {a a' : Task} (ha : Tasks Value.Reflects a a') (f : Closure Term)
    (op : Mapping) :
    Tasks Value.Reflects (Plan.assembleMap r a f op)
      (Plan.assembleMap r' a' f.directTerm op.direct) := by
  have hcall : ∀ v v', Value.Reflects v v' →
      Mirrors Value.Reflects (r.call f v) (r'.call f.directTerm v') := by
    rintro v _ rfl
    exact hr.call f v
  have herror : ∀ e : Value, Mirrors (Outcomes Value.Reflects)
      (Except.error <$> (r.call f e >>= failureOf) : Work Host (Except Value Value))
      (Except.error <$> (r'.call f.directTerm e.direct >>= failureOf)) := by
    have hfail : ∀ e : Value, Mirrors Value.Reflects (r.call f e >>= failureOf)
        (r'.call f.directTerm e.direct >>= failureOf) :=
      fun e => (hr.call f e).bind_image mirrors_failureOf
    exact fun e => (hfail e).map_image .error
  cases op with
  | map form => cases form <;> exact tasks_map ha hcall
  | recover form =>
    have hlayer := tasks_handling (.recover form (r.call f))
      (.recover .direct (r'.call f.directTerm)) ha (fun _ _ h => mirrors_pure (.ok h))
      fun e => (hr.call f e).map fun _ _ => .ok
    cases form <;> exact hlayer
  | adapt =>
    -- the layers are not of one kind, but do the same
    exact tasks_handling (.adapt fun e => r.call f e >>= failureOf)
      (.mapError fun e => r'.call f.directTerm e >>= failureOf) ha
      (fun _ _ h => mirrors_pure (.ok h)) herror
  | mapError =>
    exact tasks_handling (.mapError fun e => r.call f e >>= failureOf)
      (.mapError fun e => r'.call f.directTerm e >>= failureOf) ha
      (fun _ _ h => mirrors_pure (.ok h)) herror

omit hr in
theorem tasks_assembleWrap {a a' : Task} (ha : Tasks Value.Reflects a a') (op : Wrapping) :
    Tasks Value.Reflects (Plan.assembleWrap a op) (Plan.assembleWrap a' op.direct) := by
  cases op with
  | discard =>
    exact tasks_map (tasks_onward .discard .discard ha fun _ _ _ => mirrors_pure (.ok rfl))
      fun _ _ _ => mirrors_pure rfl
  | observe form =>
    have hobserve : Tasks (Outcomes Value.Reflects) ((Handling.observe form).apply a) a'.observe :=
      tasks_handling (.observe form) (.observe .direct) ha (fun _ _ h => mirrors_pure (.ok (.ok h)))
        fun e => mirrors_pure (.ok (.error e))
    have hvalue : ∀ o o', Outcomes Value.Reflects o o' → Mirrors Value.Reflects
        (return Value.ofExcept o : Work Host Value) (return Value.ofExcept o') := by
      rintro _ _ (rfl | e) <;> exact mirrors_pure rfl
    cases form <;> exact tasks_map hobserve hvalue
  | containPanic => exact tasks_containPanic ha

theorem tasks_assembleChain {a a' : Task} (ha : Tasks Value.Reflects a a') (k : Closure Expr)
    (op : Chaining) : Tasks Value.Reflects (Plan.assembleChain r a k op)
      (Plan.assembleChain r' a' k.directExpr op.direct) := by
  have hbuild : ∀ v, Mirrors (Outcomes Value.Reflects) (r.build k v >>= Action.evaluate)
      (r'.build k.directExpr v.direct >>= Action.evaluate) :=
    fun v => (hr.build k v).bind fun _ _ h => h
  have hbind := tasks_onward (.bind .direct (r.build k)) (.bind .direct (r'.build k.directExpr)) ha
    (by rintro v _ rfl; exact hbuild v)
  cases op with
  | bind form | andThen form => cases form <;> exact hbind
  | tryCatch form =>
    have hcatch := tasks_handling (.tryCatch .direct (r.build k))
      (.tryCatch .direct (r'.build k.directExpr)) ha (fun _ _ h => mirrors_pure (.ok h)) hbuild
    cases form <;> exact hcatch

theorem tasks_assembleJoin {a a' b b' : Task} (ha : Tasks Value.Reflects a a')
    (hb : Tasks Value.Reflects b b') (op : Joining) :
    Tasks Value.Reflects (Plan.assembleJoin r a b op) (Plan.assembleJoin r' a' b' op.direct) := by
  cases op with
  | zip form =>
    have hzip : Tasks (fun x x' : Value × Value => x'.1 = x.1.direct ∧ x'.2 = x.2.direct)
        (a.zip b) (a'.zip b') :=
      tasks_onward (.zip .direct b) (.zip .direct b') ha fun _ _ hx =>
        tasks_map hb fun _ _ hy => mirrors_pure ⟨hx, hy⟩
    have hpair : Tasks Value.Reflects (Task.paired (a.zip b)) (Task.paired (a'.zip b')) := by
      refine tasks_map hzip ?_
      rintro ⟨x, y⟩ ⟨_, _⟩ ⟨rfl, rfl⟩
      exact mirrors_pure rfl
    cases form <;> exact hpair
  | seqLeft =>
    exact tasks_onward (.seqLeft b) (.seqLeft b') ha fun _ _ hx =>
      tasks_map hb fun _ _ _ => mirrors_pure hx
  | seqRight =>
    exact tasks_onward (.seqRight b) (.seqRight b') ha fun _ _ _ =>
      tasks_map hb fun _ _ hy => mirrors_pure hy
  | followedBy form =>
    have hnext := tasks_onward (.followedBy .direct b) (.followedBy .direct b') ha fun _ _ _ => hb
    cases form <;> exact hnext
  | seq form =>
    have hfunctions : Tasks
        (fun g g' => ∀ v v', Value.Reflects v v' → Mirrors Value.Reflects (g v) (g' v'))
        (Task.functions r a) (Task.functions r' a') := by
      refine tasks_map ha ?_
      rintro g _ rfl
      refine mirrors_pure ?_
      rintro v _ rfl
      exact hr.apply g v
    have hseq := tasks_onward (.seq .direct b) (.seq .direct b') hfunctions fun _ _ hg =>
      tasks_map hb hg
    cases form <;> exact hseq
  | orElse =>
    exact tasks_handling (.orElse b) (.orElse b') ha (fun _ _ h => mirrors_pure (.ok h)) fun _ => hb

theorem tasks_zipWith {a a' b b' : Task} (ha : Tasks Value.Reflects a a')
    (hb : Tasks Value.Reflects b b') (f : Closure₂ Term) :
    Tasks Value.Reflects (a.zipWith b (r.call₂ f)) (a'.zipWith b' (r'.call₂ f.directTerm)) := by
  refine tasks_onward (.zipWith .direct b (r.call₂ f))
    (.zipWith .direct b' (r'.call₂ f.directTerm)) ha ?_
  rintro x _ rfl
  refine tasks_map hb ?_
  rintro y _ rfl
  exact hr.call₂ f x y

theorem mirrors_assembleStep (step : Closure Expr) (v : Value) :
    Mirrors (Tasks (Sides Value.Reflects Value.Reflects)) (Plan.assembleStep r step v)
      (Plan.assembleStep r' step.directExpr v.direct) := by
  refine (hr.build step v).map fun a a' ha => tasks_map ha ?_
  rintro w _ rfl
  exact mirrors_sideOf w

/-- **The action of a plan** mirrors that of the plan in the direct form. -/
theorem Plan.mirrors (p : Plan) : Tasks Value.Reflects (p.assemble r) (p.direct.assemble r') := by
  induction p with
  | value form v => cases form <;> exact mirrors_pure (.ok rfl)
  | failure form e => cases form <;> exact mirrors_pure (.error e)
  | outcome form o =>
    cases form <;> cases o <;> first | exact mirrors_pure (.ok rfl) | exact mirrors_pure (.error _)
  | putLine line =>
    have hupdate : Mirrors Eq (Work.update (Console.print (line ++ "\n")) : Work Host Unit)
        (Work.update (Console.print (line ++ "\n"))) :=
      mirrors_modify (f := Console.print (line ++ "\n")) fun s => rfl
    have hprint : Tasks Eq (Action.putLine line : Action Host Value Unit) (Action.putLine line) :=
      hupdate.map fun _ _ => .ok
    exact tasks_map hprint fun _ _ _ => mirrors_pure rfl
  | getLine =>
    have htake : Mirrors Eq
        (modifyGet (Console.takeLine : Host → Except Fault String × Host) : Work Host _)
        (modifyGet (Console.takeLine : Host → Except Fault String × Host)) :=
      fun n s => .value rfl (Console.takeLine s).2
    have hline : Tasks Eq (Action.getLine : Action Host Value String) Action.getLine := by
      refine htake.bind ?_
      rintro (f | line) _ rfl
      · exact mirrors_pure (.error (.fault f))
      · exact mirrors_pure (.ok rfl)
    refine tasks_map hline ?_
    rintro line _ rfl
    exact mirrors_pure rfl
  | sleep =>
    have hsleep : Tasks Eq (Action.sleep : Action Host Value Unit) Action.sleep :=
      Mirrors.map (mirrors_pure rfl) fun _ _ => .ok
    exact tasks_map hsleep fun _ _ _ => mirrors_pure rfl
  | delay op env t => exact tasks_assembleDelay hr env t op
  | defer env e =>
    rw [direct, assemble, assemble, Tasks, Action.evaluate_defer, Action.evaluate_defer]
    exact (hr.expr env e).bind fun _ _ h => h
  | map op p f ih => exact tasks_assembleMap hr ih f op
  | mapConst p v ih =>
    exact tasks_onward (.mapConst v) (.mapConst v.direct) ih fun _ _ _ => mirrors_pure (.ok rfl)
  | wrap op p ih => exact tasks_assembleWrap ih op
  | chain op p k ih => exact tasks_assembleChain hr ih k op
  | join op p q ihp ihq => exact tasks_assembleJoin hr ihp ihq op
  | zipWith form p q f ihp ihq => cases form <;> exact tasks_zipWith hr ihp ihq f
  | loop form seed step =>
    cases form <;> exact tasks_loop (mirrors_assembleStep hr step) seed

end Plan

end Deferral.Script
