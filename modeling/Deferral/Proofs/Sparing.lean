import Deferral.Proofs.Building
import Deferral.Proofs.Code
import Deferral.Proofs.Spending

/-!
# What plans spend

Tame values and plans may be the cause of as many expenses as they have places (`Holds`, `Builds`).
A function in place is applied once, so what it is the cause of is spent once; functions that are
called more often are quiet, and a step of a loop pays for itself.

* `spends_takeSlot`, `spends_prim`: what code does to the world.
* `Spends.after_log`: a step of a loop pays before it does anything else.
* `Spends.onward`, `Spends.handling`: layers around an action.
* `Carries.plan`: **the action of a plan spends what the plan has places for.**
-/

namespace Deferral.Script

variable {α β : Type}

namespace Account

/-- A value that may be the cause of `q` expenses, if it is applied to `k` arguments. -/
structure Holds (c : Account) (k q : ℕ) (v : Value) : Prop where
  tame : v.Tame k
  covers : c.Covers v.places
  debit : c.debit v.places ≤ q

/-- A plan that may be the cause of `q` expenses. -/
structure Builds (c : Account) (k q : ℕ) (p : Plan) : Prop where
  tame : p.Tame k
  covers : c.Covers p.places
  debit : c.debit p.places ≤ q

section World

variable {c : Account} {k p q : ℕ} {R : ℕ → α → Prop} {v : Value}

theorem Holds.of_quiet (h : v.Quiet) : c.Holds k q v := by
  refine ⟨.quiet h, ?_, ?_⟩
  · rw [h.places_eq_nil]; exact covers_nil
  · rw [h.places_eq_nil]; exact Nat.zero_le q

theorem Holds.quiet (h : c.Holds 0 q v) : v.Quiet := h.tame.quiet_of_zero

/-- A value that holds all that another one does. -/
theorem Holds.of_places {w : Value} (h : c.Holds k q v) (hw : w.Tame k)
    (hplaces : w.places = v.places) : c.Holds k q w :=
  ⟨hw, by rw [hplaces]; exact h.covers, by rw [hplaces]; exact h.debit⟩

theorem Builds.debit_append {plan : Plan} {ps : List Place} {d : ℕ} (h : c.Builds k q plan)
    (hps : c.debit ps ≤ d) : c.debit (plan.places ++ ps) ≤ d + q := by
  have := h.debit
  rw [Account.debit_append]
  omega

/-- To spend nothing is a property that passes from parts to what is made of them. -/
theorem spends_composed (c : Account) :
    Composed fun {α : Type} (w : Work Host α) => c.Spends 0 (fun _ _ => True) w where
  pure _ := spends_pure trivial
  panic := spends_panic
  giveUp := spends_giveUp
  bind hw hf := hw.bind_zero hf

theorem spends_failureOf (hv : v.Quiet) :
    c.Spends 0 (fun _ e => e.Quiet) (failureOf v : Work Host Value) := by
  refine spends_get.bind (d := 0) fun q s _ => ?_
  cases hfailure : s.channel.failure? v with
  | some e => exact spends_pure (hv.of_failure hfailure)
  | none => exact spends_malformed

theorem spends_outcomeOf (hv : c.Holds k q v) :
    c.Spends q (Ends (c.Holds k)) (outcomeOf v : Work Host (Except Value Value)) := by
  rw [outcomeOf]
  rcases hx : v.toExcept? with _ | (e | a)
  · exact spends_malformed
  · have hfailure := spends_failureOf (c := c) (hv.tame.of_error hx)
    exact (hfailure.bind (d := 0) fun _ e he => spends_pure he).le (by omega)
  · have ha := hv.tame.of_ok hx
    exact spends_pure (hv.of_places ha.1 ha.2)

theorem spends_sideOf (hv : c.Holds k q v) :
    c.Spends q (Sides (c.Holds k)) (sideOf v : Work Host (Either Value Value)) := by
  rw [sideOf]
  rcases hx : v.toEither? with _ | (w | w)
  · exact spends_malformed
  · exact spends_pure (hv.tame.of_left hx)
  · have hw := hv.tame.of_right hx
    exact spends_pure (hv.of_places hw.1 hw.2)

theorem spends_setCell (name : String) (hv : v.Quiet) :
    c.Spends 0 (fun _ _ => True) (modify (World.setCell name v) : Work Host PUnit) :=
  spends_modify fun s hs => ⟨⟨hs.tame.setCell name hv, hs.covers⟩, by
    have hspent : c.spent (s.setCell name v) = c.spent s := rfl
    omega⟩

/-- A slot is emptied when its plan is taken. -/
theorem spends_takeSlot (name : String) :
    c.Spends 0 (c.Builds k) (takeSlot name : Work Host Plan) := by
  intro n s hs
  cases hslot : s.slots.lookup name with
  | some p =>
    rw [takeSlot_run hslot]
    -- what the plan may spend moves from the slot to the value, and is not counted twice
    have hperm := World.places_take_subperm hslot
    have hcovers : c.Covers (p.places ++ (s.clear name).places) :=
      fun q hq => hs.covers q (hperm.subset hq)
    have hdebit : c.debit (p.places ++ (s.clear name).places) ≤ c.debit s.places :=
      hperm.countP_le _
    rw [debit_append] at hdebit
    rw [covers_append] at hcovers
    have htame : p.Tame k := (hs.tame.slots _ (mem_of_lookup hslot)).of_zero k
    refine ⟨⟨hs.tame.clear name, hcovers.2⟩, _, ⟨htame, hcovers.1, le_rfl⟩, ?_⟩
    have hlogged : ∀ tag, (s.clear name).logged tag = s.logged tag := fun _ => rfl
    have hcredit : c.credit (s.clear name) = c.credit s := rfl
    unfold spent
    rw [hlogged, hcredit]
    omega
  | none =>
    have htake : takeSlot name n s = .panic (.text ("no slot: " ++ name)) s := by
      rw [takeSlot, peekSlot, bind_assoc, Work.get_bind_run, hslot]
      rfl
    rw [htake]
    exact ⟨hs, le_of_eq (by simp)⟩

/-- Values that together may be the cause of `q` expenses. -/
structure HoldsAll (c : Account) (k q : ℕ) (vs : List Value) : Prop where
  tame : ∀ v ∈ vs, v.Tame k
  covers : c.Covers (vs.flatMap Value.places)
  debit : c.debit (vs.flatMap Value.places) ≤ q

theorem HoldsAll.cons {q' : ℕ} {vs : List Value} (hvs : c.HoldsAll k q' vs) (hv : c.Holds k q v) :
    c.HoldsAll k (q' + q) (v :: vs) := by
  refine ⟨?_, ?_, ?_⟩
  · intro w hw
    rcases List.mem_cons.1 hw with rfl | hw
    · exact hv.tame
    · exact hvs.tame w hw
  · rw [List.flatMap_cons]
    exact covers_append.2 ⟨hv.covers, hvs.covers⟩
  · rw [List.flatMap_cons, debit_append]
    have := hv.debit
    have := hvs.debit
    omega

theorem spends_prim (op : Prim) (hop : op ≠ .log) {vs : List Value}
    (hvs : c.HoldsAll (op.role.depth k) q vs) :
    c.Spends q (c.Holds k) (op.apply vs : Work Host Value) := by
  unfold Prim.apply
  split
  · exact absurd rfl hop
  · next name =>
    refine (spends_get.bind (d := 0) fun _ s hs => ?_).le (Nat.zero_le q)
    exact spends_pure (.of_quiet (hs.tame.cell name))
  · next name v =>
    have hv : v.Quiet := (hvs.tame v List.mem_cons_self).quiet_of_zero
    exact (spends_setCell name hv).bind_zero fun _ => spends_pure (.of_quiet .unit)
  -- all other operations leave the world, and have no places but those of their operands
  · cases hv : op.compute vs with
    | ok v =>
      obtain ⟨htame, hplaces⟩ := op.tame_compute hvs.tame hv
      refine spends_pure ⟨htame, ?_, ?_⟩
      · rcases hplaces with h | h <;> rw [h]
        exacts [covers_nil, hvs.covers]
      · rcases hplaces with h | h <;> rw [h]
        exacts [Nat.zero_le q, hvs.debit]
    | error e => exact spends_panic e

end World

section Layers

variable {c : Account} {p d : ℕ} {R : ℕ → α → Prop} {S : ℕ → β → Prop}

/-- A layer that only goes on after a value. -/
theorem Spends.onward (l : Onward Host Value α β) {a : Action Host Value α}
    (ha : c.Spends p (Ends R) a.evaluate)
    (hl : ∀ q x, R q x → c.Spends (q + d) (Ends S) (l.next x)) :
    c.Spends (p + d) (Ends S) (l.apply a).evaluate := by
  rw [l.evaluate_apply]
  refine ha.bind fun q r hr => ?_
  cases r with
  | ok x => exact hl q x hr
  | error e => exact spends_pure hr

/-- A layer that looks at failures. -/
theorem Spends.handling (l : Handling Host Value α Value β) {a : Action Host Value α}
    (ha : c.Spends p (Ends R) a.evaluate)
    (hok : ∀ q x, R q x → c.Spends (q + d) (Ends S) (l.after (.ok x)))
    (herror : ∀ e, e.Quiet → c.Spends d (Ends S) (l.after (.error e))) :
    c.Spends (p + d) (Ends S) (l.apply a).evaluate := by
  rw [l.evaluate_apply]
  refine ha.bind fun q r hr => ?_
  cases r with
  | ok x => exact hok q x hr
  | error e => exact (herror e hr).le (by omega)

/-- An action whose value is changed. -/
theorem Spends.mapped {a : Action Host Value α} (ha : c.Spends p (Ends R) a.evaluate)
    {f : α → Work Host β} (hf : ∀ q x, R q x → c.Spends (q + d) S (f x)) :
    c.Spends (p + d) (Ends S) (a.map f).evaluate :=
  Spends.onward (.map .direct f) ha fun q x hx => (hf q x hx).map fun _ _ h => h

end Layers

/-- Tame code of functions spends what it has places for. A step of a loop, which logs the tag that
pays, spends nothing. -/
structure Carries (c : Account) (r : Runner Plan Task) : Prop where
  term {env : Env} {t : Term} {k : ℕ} (henv : Env.Quiet env) (ht : t.Tame k)
    (hc : c.Covers t.places) : c.Spends (c.debit t.places) (c.Holds k) (r.term env t)
  expr {env : Env} {e : Expr} {k : ℕ} (henv : Env.Quiet env) (he : e.Tame k)
    (hc : c.Covers e.places) :
    c.Spends (c.debit e.places) (Ends (c.Holds k)) (r.expr env e >>= Action.evaluate)
  step {env : Env} {e : Expr} {k : ℕ} (henv : Env.Quiet env) (he : e.Tame k) (hmarked : e.Marked)
    (hc : c.Covers (e.places.map (Place.inside e.mark?))) :
    c.Spends 0 (Ends (c.Holds k)) (r.expr env e >>= Action.evaluate)

section Plan

variable {c : Account} {r : Runner Plan Task} (hr : c.Carries r) {a b : Task} {k p q d : ℕ}
  {v w : Value}

include hr

theorem Carries.call {f : Closure Term} (henv : Env.Quiet f.env) (hf : f.body.Tame k)
    (hc : c.Covers f.body.places) (hv : v.Quiet) :
    c.Spends (c.debit f.body.places) (c.Holds k) (r.call f v) := hr.term (henv.cons hv f.x) hf hc

theorem Carries.call₂ {f : Closure₂ Term} (henv : Env.Quiet f.env) (hf : f.body.Tame k)
    (hc : c.Covers f.body.places) (hv : v.Quiet) (hw : w.Quiet) :
    c.Spends (c.debit f.body.places) (c.Holds k) (r.call₂ f v w) :=
  hr.term ((henv.cons hv f.x).cons hw f.y) hf hc

theorem Carries.build {f : Closure Expr} (henv : Env.Quiet f.env) (hf : f.body.Tame k)
    (hc : c.Covers f.body.places) (hv : v.Quiet) :
    c.Spends (c.debit f.body.places) (Ends (c.Holds k)) (r.build f v >>= Action.evaluate) :=
  hr.expr (henv.cons hv f.x) hf hc

theorem Carries.fails {f : Closure Term} (henv : Env.Quiet f.env) (hf : f.body.Tame 0)
    (hc : c.Covers f.body.places) (hv : v.Quiet) :
    c.Spends (c.debit f.body.places) (fun _ e => e.Quiet) (r.call f v >>= failureOf) := by
  refine (hr.call henv hf hc hv).bind (d := 0) fun q w hw => ?_
  exact (spends_failureOf hw.quiet).le (Nat.zero_le q)

/-- A function in place is applied to one of its arguments. -/
theorem Carries.apply {g : Value} (hg : c.Holds (k + 1) q g) (hv : v.Quiet) :
    c.Spends q (c.Holds k) (r.apply g v) := by
  -- a function that logs nothing may be called anywhere; one in place is called for this argument
  cases hg.tame with
  | quiet hquiet =>
    cases hquiet with
    | @closure env x body henv hbody hplaces =>
      have hcall : c.Spends (c.debit body.places) (c.Holds 0) (r.call ⟨env, x, body⟩ v) :=
        hr.call henv hbody (by rw [hplaces]; exact covers_nil) hv
      rw [hplaces] at hcall
      exact (hcall.le (Nat.zero_le q)).imp fun _ _ h => .of_quiet h.quiet
    | _ => exact spends_malformed
  | closure henv hbody => exact Spends.le (hr.call henv hbody hg.covers hv) hg.debit
  | _ => exact spends_malformed

theorem Carries.spends_assembleDelay {env : Env} {t : Term} (henv : Env.Quiet env) (ht : t.Tame k)
    (hc : c.Covers t.places) (op : Delaying) :
    c.Spends (c.debit t.places) (Ends (c.Holds k)) (Plan.assembleDelay r env t op).evaluate := by
  have hterm := hr.term henv ht hc
  cases op with
  | work => exact hterm.map fun _ _ h => h
  | fallible => exact hterm.bind (d := 0) fun _ _ h => spends_outcomeOf h

/-- The operand spends, and then the function. -/
theorem Carries.spends_assembleMap (op : Mapping)
    (ha : c.Spends p (Ends (c.Holds (op.role.depth k))) a.evaluate) {f : Closure Term}
    (henv : Env.Quiet f.env) (hf : f.body.Tame (op.bodyRole.depth k))
    (hc : c.Covers f.body.places) :
    c.Spends (p + c.debit f.body.places) (Ends (c.Holds k))
      (Plan.assembleMap r a f op).evaluate := by
  cases op with
  | map form =>
    have hmap : c.Spends (p + c.debit f.body.places) (Ends (c.Holds k))
        (a.map (r.call f)).evaluate :=
      ha.mapped fun q x hx => (hr.call henv hf hc hx.quiet).le (by omega)
    cases form <;> exact hmap
  | recover form =>
    have hlayer : c.Spends (p + c.debit f.body.places) (Ends (c.Holds k))
        ((Handling.recover form (r.call f)).apply a).evaluate := by
      refine ha.handling _ (fun q x hx => (spends_pure hx).le (by omega)) fun e he => ?_
      exact (hr.call henv hf hc he).map fun _ _ h => h
    cases form <;> exact hlayer
  | adapt =>
    refine ha.handling (.adapt fun e => r.call f e >>= failureOf)
      (fun q x hx => (spends_pure hx).le (by omega)) fun e he => ?_
    exact (hr.fails henv hf hc he).map fun _ _ h => h
  | mapError =>
    refine ha.handling (.mapError fun e => r.call f e >>= failureOf)
      (fun q x hx => (spends_pure hx).le (by omega)) fun e he => ?_
    exact (hr.fails henv hf hc he).map fun _ _ h => h

omit hr in
theorem spends_assembleWrap (op : Wrapping) (ha : c.Spends p (Ends (c.Holds k)) a.evaluate) :
    c.Spends p (Ends (c.Holds k)) (Plan.assembleWrap a op).evaluate := by
  cases op with
  | discard =>
    have hdiscard : c.Spends p (Ends fun _ _ => True) (Onward.discard.apply a).evaluate :=
      ha.onward (d := 0) _ fun _ _ _ => spends_pure trivial
    exact hdiscard.mapped (d := 0) fun _ _ _ => spends_pure (.of_quiet .unit)
  | observe form =>
    have hobserve : c.Spends p (Ends (Ends (c.Holds k)))
        ((Handling.observe form).apply a).evaluate :=
      ha.handling (d := 0) _ (fun _ _ hx => spends_pure hx) fun _ he => spends_pure he
    -- an outcome that is made a value may still hold a function in place, as a success
    have hvalue : ∀ q x, Ends (c.Holds k) q x → c.Holds k q (.ofExcept x) := by
      rintro q (e | v) h
      · exact .of_quiet (.err h)
      · exact h.of_places (.ok h.tame) rfl
    cases form <;>
      exact hobserve.mapped (d := 0) fun q x hx => spends_pure (hvalue q x hx)
  | containPanic => exact spends_containPanic ha

/-- The operand spends, and then what the continuation builds. -/
theorem Carries.spends_assembleChain (op : Chaining)
    (ha : c.Spends p (Ends (c.Holds (op.role.depth k))) a.evaluate) {f : Closure Expr}
    (henv : Env.Quiet f.env) (hf : f.body.Tame k) (hc : c.Covers f.body.places) :
    c.Spends (p + c.debit f.body.places) (Ends (c.Holds k))
      (Plan.assembleChain r a f op).evaluate := by
  cases op with
  | bind form | andThen form =>
    have hlayer : c.Spends (p + c.debit f.body.places) (Ends (c.Holds k))
        ((Onward.bind .direct (r.build f)).apply a).evaluate :=
      ha.onward _ fun q x hx => (hr.build henv hf hc hx.quiet).le (by omega)
    cases form <;> exact hlayer
  | tryCatch form =>
    have hlayer : c.Spends (p + c.debit f.body.places) (Ends (c.Holds k))
        ((Handling.tryCatch .direct (r.build f)).apply a).evaluate :=
      ha.handling _ (fun q x hx => (spends_pure hx).le (by omega)) fun e he =>
        hr.build henv hf hc he
    cases form <;> exact hlayer

/-- Both operands spend; a function in place on the left waits for its argument on the right. -/
theorem Carries.spends_assembleJoin (op : Joining)
    (ha : c.Spends p (Ends (c.Holds (op.left.depth k))) a.evaluate)
    (hb : c.Spends d (Ends (c.Holds (op.right.depth k))) b.evaluate) :
    c.Spends (p + d) (Ends (c.Holds k)) (Plan.assembleJoin r a b op).evaluate := by
  cases op with
  | zip form =>
    have hzip : c.Spends (p + d) (Ends fun _ x => x.1.Quiet ∧ x.2.Quiet)
        ((Onward.zip .direct b).apply a).evaluate := by
      refine ha.onward _ fun q x hx => Spends.le ?_ (Nat.le_add_left d q)
      exact hb.mapped (d := 0) fun _ y hy => spends_pure ⟨hx.quiet, hy.quiet⟩
    have hpaired : c.Spends (p + d) (Ends (c.Holds k)) (Task.paired (a.zip b)).evaluate :=
      hzip.mapped (d := 0) fun _ x hx => spends_pure (.of_quiet (.pair hx.1 hx.2))
    cases form <;> exact hpaired
  | seqLeft =>
    refine ha.onward (.seqLeft b) fun q x hx => Spends.le ?_ (Nat.add_comm d q).le
    exact hb.mapped fun q' _ _ => (spends_pure hx).le (by omega)
  | seqRight =>
    refine ha.onward (.seqRight b) fun q x _ => Spends.le ?_ (Nat.le_add_left d q)
    exact hb.mapped (d := 0) fun _ _ hy => spends_pure hy
  | followedBy form =>
    have hlayer : c.Spends (p + d) (Ends (c.Holds k))
        ((Onward.followedBy .direct b).apply a).evaluate :=
      ha.onward _ fun q _ _ => hb.le (Nat.le_add_left d q)
    cases form <;> exact hlayer
  | seq form =>
    have hseq : c.Spends (p + d) (Ends (c.Holds k)) ((Task.functions r a).seq b).evaluate := by
      rw [evaluate_functions_seq]
      refine ha.bind fun q x hx => ?_
      cases x with
      | ok g =>
        refine Spends.le ?_ (Nat.add_comm d q).le
        exact hb.mapped fun q' v hv => (hr.apply hx hv.quiet).le (by omega)
      | error e => exact spends_pure hx
    cases form <;> exact hseq
  | orElse =>
    exact ha.handling (.orElse b) (fun q x hx => (spends_pure hx).le (by omega)) fun _ _ => hb

theorem Carries.spends_zipWith (ha : c.Spends p (Ends (c.Holds 0)) a.evaluate)
    (hb : c.Spends d (Ends (c.Holds 0)) b.evaluate) {f : Closure₂ Term}
    (henv : Env.Quiet f.env) (hf : f.body.Tame k) (hc : c.Covers f.body.places) :
    c.Spends (p + (d + c.debit f.body.places)) (Ends (c.Holds k))
      (a.zipWith b (r.call₂ f)).evaluate := by
  refine ha.onward (.zipWith .direct b (r.call₂ f)) fun q x hx => Spends.le ?_ (Nat.le_add_left _ q)
  exact hb.mapped fun q' y hy => (hr.call₂ henv hf hc hx.quiet hy.quiet).le (by omega)

/-- **A round spends nothing**, as its step pays. -/
theorem Carries.spends_round {step : Closure Expr} (henv : Env.Quiet step.env)
    (hstep : step.body.Tame k) (hmarked : step.body.Marked)
    (hc : c.Covers (step.body.places.map (Place.inside step.body.mark?))) (hv : v.Quiet) :
    c.Spends 0 (Ends (Sides (c.Holds k))) (Action.round (Plan.assembleStep r step) v) := by
  rw [round_assembleStep]
  have hbuild : c.Spends 0 (Ends (c.Holds k)) (r.build step v >>= Action.evaluate) :=
    hr.step (henv.cons hv step.x) hstep hmarked hc
  refine hbuild.bind (d := 0) fun q x hx => ?_
  cases x with
  | ok w => exact (spends_sideOf hx).map fun _ _ h => h
  | error e => exact spends_pure hx

/-- The rounds pay for themselves, so a loop spends nothing. -/
theorem Carries.spends_assembleLoop {step : Closure Expr} (henv : Env.Quiet step.env)
    (hstep : step.body.Tame k) (hmarked : step.body.Marked)
    (hc : c.Covers (step.body.places.map (Place.inside step.body.mark?))) (hv : v.Quiet) :
    c.Spends 0 (Ends (c.Holds k)) (Action.loop v (Plan.assembleStep r step)).evaluate := by
  rw [Action.evaluate_loop]
  have hround : ∀ t, t.Quiet → c.Spends 0 (Sides (Ends (c.Holds k)))
      (Work.exceptRound (Action.round (Plan.assembleStep r step)) t) := by
    intro t ht
    refine (hr.spends_round henv hstep hmarked hc ht).bind (d := 0) fun q x hx => ?_
    rcases x with e | (w | w) <;> exact spends_pure hx
  refine (spends_iterate hround hv).bind (d := 0) fun q x hx => ?_
  exact (spends_emit _).bind_zero fun _ => spends_pure hx

/-- **The action of a plan spends what the plan has places for.** -/
theorem Carries.plan (p : Plan) : ∀ {k : ℕ}, p.Tame k → c.Covers p.places →
    c.Spends (c.debit p.places) (Ends (c.Holds k)) (p.assemble r).evaluate := by
  -- on the plan, for any depth: what becomes of an operand says at which depth it is tame
  induction p with
  | value form v =>
    intro k ht hc
    cases form <;> exact spends_pure ⟨ht, hc, le_rfl⟩
  | failure form e =>
    intro k ht _
    cases form <;> exact spends_pure ht
  | outcome form o =>
    intro k ht hc
    rcases o with e | v
    · cases form <;> exact spends_pure ht
    · cases form <;> exact spends_pure ⟨ht, hc, le_rfl⟩
  | putLine line =>
    intro k _ _
    have hprint : c.Spends 0 (fun _ _ => True)
        (Work.update (Console.print (line ++ "\n")) : Work Host Unit) :=
      spends_unspent fun _ _ => ⟨(), _, rfl, rfl, rfl, fun _ => rfl⟩
    have hline : c.Spends 0 (Ends fun _ _ => True)
        (Action.putLine line : Action Host Value Unit).evaluate := hprint.map fun _ _ h => h
    exact hline.mapped (d := 0) fun _ _ _ => spends_pure (.of_quiet .unit)
  | getLine =>
    intro k _ _
    have htake : c.Spends 0 (fun _ _ => True)
        (modifyGet (Console.takeLine : Host → Except Fault String × Host) : Work Host _) :=
      spends_unspent fun _ _ => ⟨_, _, rfl, rfl, rfl, fun _ => rfl⟩
    have hline : c.Spends 0 (Ends fun _ _ => True)
        (Action.getLine : Action Host Value String).evaluate := by
      refine htake.bind (d := 0) fun q x _ => ?_
      cases x with
      | ok line => exact spends_pure trivial
      | error e => exact spends_pure (.fault e)
    exact hline.mapped (d := 0) fun _ s _ => spends_pure (.of_quiet (.text s))
  | sleep =>
    intro k _ _
    have hsleep : c.Spends 0 (Ends fun _ _ => True)
        (Action.sleep : Action Host Value Unit).evaluate := spends_pure trivial
    exact hsleep.mapped (d := 0) fun _ _ _ => spends_pure (.of_quiet .unit)
  | delay op env t => exact fun ht hc => hr.spends_assembleDelay ht.1 ht.2 hc op
  | defer env e =>
    intro k ht hc
    rw [Plan.assemble, Action.evaluate_defer]
    exact hr.expr ht.1 ht.2 hc
  | map op p f ih =>
    intro k ht hc
    simp only [Plan.places, debit_append, covers_append] at hc ⊢
    exact hr.spends_assembleMap op (ih ht.1 hc.1) ht.2.1 ht.2.2 hc.2
  | mapConst p v ih =>
    intro k ht hc
    simp only [Plan.places, debit_append, covers_append] at hc ⊢
    refine (ih ht.1 hc.1).onward (.mapConst v) fun q _ _ => ?_
    exact (spends_pure ⟨ht.2, hc.2, le_rfl⟩).le (Nat.le_add_left _ q)
  | wrap op p ih => exact fun ht hc => spends_assembleWrap op (ih ht hc)
  | chain op p f ih =>
    intro k ht hc
    simp only [Plan.places, debit_append, covers_append] at hc ⊢
    exact hr.spends_assembleChain op (ih ht.1 hc.1) ht.2.1 ht.2.2 hc.2
  | join op p q ihp ihq =>
    intro k ht hc
    simp only [Plan.places, debit_append, covers_append] at hc ⊢
    exact hr.spends_assembleJoin op (ihp ht.1 hc.1) (ihq ht.2 hc.2)
  | zipWith form p q f ihp ihq =>
    intro k ht hc
    simp only [Plan.places, debit_append, covers_append] at hc ⊢
    have hzip := hr.spends_zipWith (ihp ht.1 hc.1) (ihq ht.2.1 hc.2.1) ht.2.2.1 ht.2.2.2 hc.2.2
    cases form <;> exact hzip
  | loop form seed step =>
    intro k ht hc
    have hloop := hr.spends_assembleLoop ht.2.1 ht.2.2.1 ht.2.2.2 hc ht.1
    cases form <;> exact hloop.le (Nat.zero_le _)

end Plan

end Account
end Deferral.Script
