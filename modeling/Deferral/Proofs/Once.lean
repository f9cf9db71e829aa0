import Deferral.Proofs.Spans
import Deferral.Proofs.Sparing

/-!
# Deferred work is done once

What an action does is put off, and the functions that it is made of move: into the actions around
it, into what handlers and continuations build while it runs. That none of them is called
twice is seen from what they log. Every tag has one place in the code, and code spends no more than
it has places for, whatever becomes of it. Only the step of a loop is called more than once; it
logs a tag of its own each time, which pays for what is logged inside.

* `Carries.eval`, `Carries.builds`: terms and expressions, part by part.
* `carries_within`: the code of functions, by induction on how deep calls nest.
* `deferred_work_once`: **no deferred work is done twice.**
-/

namespace Deferral.Script

namespace Account

section Code

variable {c : Account} {r : Runner Plan Task}

mutual

/-- **Terms spend what they have places for**, part by part; what a part leaves is spent by the
next. -/
theorem Carries.eval (hr : c.Carries r) : (t : Term) → ∀ {env : Env} {k : ℕ}, Env.Quiet env →
    t.Tame k → c.Covers t.places → c.Spends (c.debit t.places) (c.Holds k) (t.eval r env)
  | .unit, _, _, _, _, _ => spends_pure (.of_quiet .unit)
  | .bool b, _, _, _, _, _ => spends_pure (.of_quiet (.bool b))
  | .int n, _, _, _, _, _ => spends_pure (.of_quiet (.int n))
  | .text s, _, _, _, _, _ => spends_pure (.of_quiet (.text s))
  | .var x, env, k, henv, _, _ => by
    rw [Term.eval]
    cases hx : env.lookup x with
    | some v => exact spends_pure (.of_quiet (henv _ (mem_of_lookup hx)))
    | none => exact spends_malformed
  | .bind x t u, env, k, henv, ht, hc => by
    refine .bind_places hc (hr.eval t henv ht.1) fun hc q v hv => ?_
    exact (hr.eval u (henv.cons hv.quiet x) ht.2 hc).le (Nat.le_add_right _ q)
  | .fn x body, env, 0, henv, ht, _ => spends_pure (.of_quiet (.closure henv ht.1 ht.2))
  | .fn x body, env, k + 1, henv, ht, hc => spends_pure ⟨.closure henv ht, hc, le_rfl⟩
  | .call f a, env, k, henv, ht, hc => by
    refine .bind_places hc (hr.eval f henv ht.1) fun hc q g hg => ?_
    refine (hr.eval a henv ht.2 hc).bind fun q' v hv => ?_
    exact (hr.apply hg hv.quiet).le (Nat.le_add_left q q')
  | .block ts, env, k, henv, ht, hc => hr.evalBlock ts henv ht hc
  | .cond b t u, env, k, henv, ht, hc => by
    refine .bind_places hc (hr.eval b henv ht.1) fun hc q v _ => ?_
    -- one of the two is not computed, so its places are allowed for and not spent
    obtain ⟨hct, hcu⟩ := covers_append.1 hc
    rw [debit_append]
    refine ((spends_composed c).truthOf v).bind_zero fun x => ?_
    cases x with
    | true => exact (hr.eval t henv ht.2.1 hct).le (by omega)
    | false => exact (hr.eval u henv ht.2.2 hcu).le (by omega)
  | .cases t x a y b, env, k, henv, ht, hc => by
    refine .bind_places hc (hr.eval t henv ht.1) fun hc q v hv => ?_
    obtain ⟨hca, hcb⟩ := covers_append.1 hc
    rw [debit_append]
    rcases hside : v.side? with _ | (w | w)
    · exact spends_malformed
    · have hw := hv.quiet.of_side (.inl hside)
      exact (hr.eval b (henv.cons hw y) ht.2.2 hcb).le (by omega)
    · have hw := hv.quiet.of_side (.inr hside)
      exact (hr.eval a (henv.cons hw x) ht.2.1 hca).le (by omega)
  | .prim op args, env, k, henv, ht, hc => by
    by_cases hop : op = .log
    · obtain ⟨tag, htag⟩ := Option.isSome_iff_exists.1 (ht.2 hop)
      obtain ⟨rfl, rfl⟩ := Prim.eq_of_tag? htag
      exact (spends_log tag).bind (d := 0) fun _ _ _ => spends_pure (.of_quiet .unit)
    · rw [Term.places] at hc ⊢
      rw [debit_append]
      have hargs := hr.evalAll args henv ht.1 (covers_append.1 hc).2
      exact (hargs.bind (d := 0) fun q vs hvs => spends_prim op hop hvs).le (Nat.le_add_left _ _)
  | .run e, _, _, _, ht, _ => ht.elim
termination_by structural t => t

/-- The values of some terms are kept together, with what they are the cause of. -/
theorem Carries.evalAll (hr : c.Carries r) : (ts : List Term) → ∀ {env : Env} {k : ℕ},
    Env.Quiet env → Term.TameAll ts k → c.Covers (Term.placesAll ts) →
    c.Spends (c.debit (Term.placesAll ts)) (c.HoldsAll k) (Term.evalAll r env ts)
  | [], _, _, _, _, _ => spends_pure ⟨nofun, covers_nil, le_rfl⟩
  | t :: ts, env, k, henv, ht, hc => by
    refine .bind_places hc (hr.eval t henv ht.1) fun hc q v hv => ?_
    exact (hr.evalAll ts henv ht.2 hc).bind fun q' vs hvs => spends_pure (hvs.cons hv)
termination_by structural ts => ts

/-- Only the last value of a block is kept. -/
theorem Carries.evalBlock (hr : c.Carries r) : (ts : List Term) → ∀ {env : Env} {k : ℕ},
    Env.Quiet env → Term.TameBlock ts k → c.Covers (Term.placesAll ts) →
    c.Spends (c.debit (Term.placesAll ts)) (c.Holds k) (Term.evalBlock r env ts)
  | [], _, _, _, _, _ => spends_pure (.of_quiet .unit)
  | [t], _, _, henv, ht, hc => by
    rw [Term.placesAll, Term.placesAll, List.append_nil] at hc ⊢
    exact hr.eval t henv ht hc
  | t :: u :: ts, env, k, henv, ht, hc => by
    refine .bind_places hc (hr.eval t henv ht.1) fun hc q _ _ => ?_
    exact (hr.evalBlock (u :: ts) henv ht.2 hc).le (Nat.le_add_right _ q)
termination_by structural ts => ts

end

/-- What is held is handed on to the plan. -/
theorem spends_ofHolding (op : Holding) {k q : ℕ} {v : Value} (hv : c.Holds (op.role.depth k) q v) :
    c.Spends q (c.Builds k) (Plan.ofHolding op v) := by
  cases op with
  | value form => exact spends_pure ⟨hv.tame, hv.covers, hv.debit⟩
  | failure form =>
    have hfailure : c.Spends 0 (c.Builds k) (Plan.failure form <$> failureOf v) :=
      (spends_failureOf hv.quiet).map fun q _ he => ⟨he, covers_nil, Nat.zero_le q⟩
    exact hfailure.le (Nat.zero_le q)
  | outcome form =>
    refine (spends_outcomeOf hv).map fun q o ho => ?_
    cases o with
    | ok a => exact ⟨ho.tame, ho.covers, ho.debit⟩
    | error e => exact ⟨ho, covers_nil, Nat.zero_le q⟩
  | putLine =>
    refine ((spends_composed c).lineOf v).bind_zero fun line => spends_pure ?_
    exact ⟨trivial, covers_nil, Nat.zero_le q⟩
  | sleep =>
    refine ((spends_composed c).countOf v).bind_zero fun _ => spends_pure ?_
    exact ⟨trivial, covers_nil, Nat.zero_le q⟩

/-- **Building hands on to the plan** what it does not spend. -/
theorem Carries.builds (hr : c.Carries r) : (e : Expr) → ∀ {env : Env} {k : ℕ}, Env.Quiet env →
    e.Tame k → c.Covers e.places → c.Spends (c.debit e.places) (c.Builds k) (e.build r env)
  | .slot name, _, _, _, _, _ => spends_takeSlot name
  | .absent, _, _, _, _, _ => spends_malformed
  | .getLine, _, _, _, _, _ => spends_pure ⟨trivial, covers_nil, le_rfl⟩
  | .cond b e f, env, k, henv, ht, hc => by
    refine .bind_places hc (hr.eval b henv ht.1) fun hc q v _ => ?_
    obtain ⟨hce, hcf⟩ := covers_append.1 hc
    rw [debit_append]
    refine ((spends_composed c).truthOf v).bind_zero fun x => ?_
    cases x with
    | true => exact (hr.builds e henv ht.2.1 hce).le (by omega)
    | false => exact (hr.builds f henv ht.2.2 hcf).le (by omega)
  | .bind x t e, env, k, henv, ht, hc => by
    refine .bind_places hc (hr.eval t henv ht.1) fun hc q v hv => ?_
    exact (hr.builds e (henv.cons hv.quiet x) ht.2 hc).le (Nat.le_add_right _ q)
  | .after t e, env, k, henv, ht, hc => by
    refine .bind_places hc (hr.eval t henv ht.1) fun hc q _ _ => ?_
    exact (hr.builds e henv ht.2 hc).le (Nat.le_add_right _ q)
  | .cases t x e y f, env, k, henv, ht, hc => by
    refine .bind_places hc (hr.eval t henv ht.1) fun hc q v hv => ?_
    obtain ⟨hce, hcf⟩ := covers_append.1 hc
    rw [debit_append]
    rcases hside : v.side? with _ | (w | w)
    · exact spends_malformed
    · have hw := hv.quiet.of_side (.inl hside)
      exact (hr.builds f (henv.cons hw y) ht.2.2 hcf).le (by omega)
    · have hw := hv.quiet.of_side (.inr hside)
      exact (hr.builds e (henv.cons hw x) ht.2.1 hce).le (by omega)
  | .repeated _ _ _ _, _, _, _, ht, _ => ht.elim
  | .hold op t, env, k, henv, ht, hc =>
    (hr.eval t henv ht hc).bind (d := 0) fun _ _ hv => spends_ofHolding op hv
  | .delay op t, env, k, henv, ht, hc => spends_pure ⟨⟨henv, ht⟩, hc, le_rfl⟩
  | .defer e, env, k, henv, ht, hc => spends_pure ⟨⟨henv, ht⟩, hc, le_rfl⟩
  | .map op e x body, env, k, henv, ht, hc => by
    refine .bind_places hc (hr.builds e henv ht.1) fun hc q p hp => spends_pure ?_
    exact ⟨⟨hp.tame, henv, ht.2⟩, covers_append.2 ⟨hp.covers, hc⟩, hp.debit_append le_rfl⟩
  | .mapConst e t, env, k, henv, ht, hc => by
    refine .bind_places hc (hr.builds e henv ht.1) fun hc q p hp => ?_
    refine (hr.eval t henv ht.2 hc).bind fun q' v hv => spends_pure ?_
    exact ⟨⟨hp.tame, hv.tame⟩, covers_append.2 ⟨hp.covers, hv.covers⟩, hp.debit_append hv.debit⟩
  | .wrap op e, env, k, henv, ht, hc => by
    refine (hr.builds e henv ht hc).bind (d := 0) fun q p hp => spends_pure ?_
    exact ⟨hp.tame, hp.covers, hp.debit⟩
  | .chain op e x body, env, k, henv, ht, hc => by
    refine .bind_places hc (hr.builds e henv ht.1) fun hc q p hp => spends_pure ?_
    exact ⟨⟨hp.tame, henv, ht.2⟩, covers_append.2 ⟨hp.covers, hc⟩, hp.debit_append le_rfl⟩
  | .join op e f, env, k, henv, ht, hc => by
    refine .bind_places hc (hr.builds e henv ht.1) fun hc q p hp => ?_
    refine (hr.builds f henv ht.2 hc).bind fun q' p' hp' => spends_pure ?_
    exact ⟨⟨hp.tame, hp'.tame⟩, covers_append.2 ⟨hp.covers, hp'.covers⟩, hp.debit_append hp'.debit⟩
  | .zipWith form e f x y body, env, k, henv, ht, hc => by
    refine .bind_places hc (hr.builds e henv ht.1) fun hc q p hp => ?_
    obtain ⟨hcf, hcb⟩ := covers_append.1 hc
    rw [debit_append]
    refine Spends.le ((hr.builds f henv ht.2.1 hcf).bind (d := c.debit body.places + q)
      fun q' p' hp' => spends_pure ?_) (by omega)
    have hdebit : c.debit (p.places ++ (p'.places ++ body.places)) ≤
        c.debit body.places + q' + q := hp.debit_append (hp'.debit_append le_rfl)
    exact ⟨⟨hp.tame, hp'.tame, henv, ht.2.2⟩,
      covers_append.2 ⟨hp.covers, covers_append.2 ⟨hp'.covers, hcb⟩⟩, hdebit.trans (by omega)⟩
  | .loop form seed x step, env, k, henv, ht, hc => by
    refine .bind_places hc (hr.eval seed henv ht.1) fun hc q v hv => spends_pure ?_
    exact ⟨⟨hv.quiet, henv, ht.2.1, ht.2.2⟩, hc, Nat.le_add_right _ q⟩
termination_by structural e => e

/-- What is built is evaluated. -/
theorem Carries.evaluated (hr : c.Carries r) (e : Expr) {env : Env} {k : ℕ} (henv : Env.Quiet env)
    (he : e.Tame k) (hc : c.Covers e.places) : c.Spends (c.debit e.places) (Ends (c.Holds k))
      (e.build r env >>= fun p => (p.assemble r).evaluate) :=
  (hr.builds e henv he hc).bind (d := 0) fun _ p hp => (hr.plan p hp.tame hp.covers).le hp.debit

/-- The step of a loop has logged the tag that pays before it builds. -/
theorem Carries.evaluated_step (hr : c.Carries r) (e : Expr) {env : Env} {k : ℕ}
    (henv : Env.Quiet env) (he : e.Tame k) (hmarked : e.Marked)
    (hc : c.Covers (e.places.map (Place.inside e.mark?))) :
    c.Spends 0 (Ends (c.Holds k)) (e.build r env >>= fun p => (p.assemble r).evaluate) := by
  obtain ⟨tag, htag⟩ := Option.isSome_iff_exists.1 hmarked.1
  rw [htag] at hc
  obtain ⟨hcovers, hpays⟩ := debit_le_of_covers_inside hc hmarked.2
  obtain ⟨e, rfl, hbuild⟩ := Expr.build_of_mark? htag
  have hplaces : (Expr.after (.prim .log [.text tag]) e).places = [⟨tag, []⟩] ++ e.places := rfl
  rw [hplaces, debit_append] at hpays
  rw [hplaces] at hcovers
  rw [hbuild, bind_assoc]
  exact (hr.evaluated e henv he.2 (covers_append.1 hcovers).2).after_log hpays

/-- **Code of functions spends what it has places for**, however deep its calls may nest. -/
theorem carries_within (c : Account) (depth : ℕ) :
    c.Carries (Runner.within depth : Runner Plan Task) := by
  -- on the depth; a call is code that is run one level deeper
  induction depth with
  | zero => exact ⟨fun _ _ _ => spends_giveUp, fun _ _ _ => spends_giveUp,
      fun _ _ _ _ => spends_giveUp⟩
  | succ depth ih =>
    have hexpr : ∀ env e, (Runner.within (depth + 1)).expr env e >>= Action.evaluate =
        e.build (Runner.within depth) env >>= fun p : Plan =>
          (p.assemble (Runner.within depth)).evaluate := fun _ _ => bind_map_left _ _ _
    refine ⟨fun henv ht hc => ih.eval _ henv ht hc, fun henv he hc => ?_,
      fun henv he hmarked hc => ?_⟩
    · rw [hexpr]
      exact ih.evaluated _ henv he hc
    · rw [hexpr]
      exact ih.evaluated_step _ henv he hmarked hc

end Code

section Run

variable {c : Account} {s s' s₂ : Host}

theorem Unspent.trans {w w' w'' : Host} (h : Unspent w w') (h' : Unspent w' w'') : Unspent w w'' :=
  ⟨h'.cells.trans h.cells, h'.slots.trans h.slots, fun tag => (h'.logged tag).trans (h.logged tag)⟩

/-- However it ends, no more was spent. -/
theorem Bounds.spent_le {α : Type} {p : ℕ} {R : ℕ → α → Prop} {e : Ending Host α}
    (h : c.Bounds p R s e) (hs : e.state? = some s') : c.spent s' ≤ c.spent s + p := by
  cases e with
  | value a s₁ =>
    cases hs
    obtain ⟨-, q, -, hle⟩ := h
    omega
  | panic e s₁ =>
    cases hs
    exact h.2
  | exhausted => cases hs

/-- To leave the span of a run spends nothing. -/
theorem unspent_outOfSpan {e : Ending Host (Except Value Value)}
    (h : e.outOfSpan.state? = some s₂) : ∃ s', e.state? = some s' ∧ Unspent s' s₂ := by
  rcases e with ⟨x | x, s'⟩ | ⟨p, s'⟩ | _ <;> cases h
  · exact ⟨s', rfl, (unspent_note _).trans (unspent_note _)⟩
  · exact ⟨s', rfl, unspent_note _⟩
  · exact ⟨s', rfl, unspent_note _⟩

/-- To build by an expression and to run the action once spends what the expression has places
for. -/
theorem spent_le_of_run {e : Expr} {k d d' n n' : ℕ} {p : Plan} {s₁ : Host} (he : e.Tame k)
    (hs : c.Fair s) (hc : c.Covers e.places)
    (hbuild : e.build (Runner.within d) [] n s = .value p s₁)
    (hrun : ((p.assemble (Runner.within d')).run n' s₁).state? = some s₂) :
    c.spent s₂ ≤ c.spent s + c.debit e.places := by
  have henv : Env.Quiet [] := nofun
  have hbuilt := (c.carries_within d).builds e henv he hc n s hs
  rw [hbuild] at hbuilt
  obtain ⟨hs₁, q, hq, hle⟩ := hbuilt
  have hinto : Unspent s₁ (intoSpan s₁) := (unspent_note _).trans (unspent_note _)
  have hplan := (c.carries_within d').plan p hq.tame hq.covers n' _ (hinto.fair hs₁)
  rw [Action.run_eq_outOfSpan] at hrun
  obtain ⟨s', hs', hout⟩ := unspent_outOfSpan hrun
  have hspent := hplan.spent_le hs'
  have hdebit := hq.debit
  rw [hinto.spent] at hspent
  rw [hout.spent]
  omega

end Run

end Account

section Once

variable {e : Expr} {k d d' n n' : ℕ} {p : Plan} {s s₁ s₂ : Host}

/-- **No deferred work is done twice.** The code of an expression logs tags, each of which has one
place: in an operand that is computed when the action is built, or in a function that is given to
an operation, inside other such functions or not, or in a function in place that is applied to
the value of another action. When the action is built and then run once, until it ends or panics,
a tag whose place is in no step of a loop is logged at most once. So this holds of all tags of an
expression without loops. A tag whose place is in a step is logged at most as often as the tag that
the step logs when it is called; where loops are nested, this is so for the innermost step.

Slots may be taken, and then the tags of what is in them are counted with those of the expression;
handlers may be run, and panics contained, at any place. -/
theorem deferred_work_once (he : e.Tame k) (hs : s.Tame)
    (hdistinct : ((e.places ++ s.places).map Place.tag).Nodup)
    (hbuild : e.build (Runner.within d) [] n s = .value p s₁)
    (hrun : ((p.assemble (Runner.within d')).run n' s₁).state? = some s₂) :
    (∀ tag, (∀ x ∈ e.places ++ s.places, x.tag = tag → x.steps = []) →
      s₂.logged tag ≤ s.logged tag + 1) ∧
    ∀ x ∈ e.places ++ s.places, ∀ step, x.steps.getLast? = some step →
      s₂.logged x.tag + s.logged step ≤ s.logged x.tag + s₂.logged step := by
  -- what an account has to cover, and what comes of it
  have hspent : ∀ c : Account, c.Covers (e.places ++ s.places) →
      (s₂.logged c.charged : ℤ) - c.credit s₂ ≤
        s.logged c.charged - c.credit s + c.debit (e.places ++ s.places) := by
    intro c hc
    obtain ⟨hce, hcs⟩ := Account.covers_append.1 hc
    have hle := c.spent_le_of_run he ⟨hs, hcs⟩ hce hbuild hrun
    rw [Account.debit_append]
    unfold Account.spent at hle
    omega
  -- the account of the tag with nothing to pay it, then that which the innermost step pays
  refine ⟨fun tag htag => ?_, fun x hx step hstep => ?_⟩
  · have h := hspent ⟨tag, none⟩ fun x hx hcharged => .inl (htag x hx hcharged)
    have hone : Account.debit ⟨tag, none⟩ (e.places ++ s.places) ≤ 1 :=
      Account.debit_le_one hdistinct
    simp only [Account.credit] at h
    omega
  · have hsame : ∀ y ∈ e.places ++ s.places, y.tag = x.tag → y = x :=
      fun y hy htag => List.inj_on_of_nodup_map hdistinct hy hx htag
    have h := hspent ⟨x.tag, some step⟩ fun y hy htag => .inr (by rw [hsame y hy htag, hstep])
    have hzero : Account.debit ⟨x.tag, some step⟩ (e.places ++ s.places) = 0 := by
      refine List.countP_eq_zero.2 fun y hy => ?_
      simp only [decide_eq_true_eq, not_and]
      intro htag hsteps
      rw [← hsame y hy htag, hsteps] at hstep
      cases hstep
    simp only [Account.credit] at h
    omega

end Once

/-- A function that a handler makes is applied to what a loop gives after three rounds. -/
def handledRounds : Expr :=
  .join (.seq .direct)
    (.chain (.tryCatch .direct) (.hold (.failure .direct) (.text "no")) "e"
      (.after (.prim .log [.text "handler"])
        (.hold (.value .direct) (.fn "x" (.block [.prim .log [.text "function"], .var "x"])))))
    (.loop .direct (.int 0) "i"
      (.after (.prim .log [.text "step"])
        (.map (.map .direct)
          (.delay .work (.block [.prim .log [.text "round"], .prim .lt [.var "i", .int 2]])) "more"
          (.cond (.var "more") (.prim .left [.prim .add [.var "i", .int 1]])
            (.prim .right [.var "i"])))))

/-- The host before anything has happened. -/
def freshHost : Host := World.fresh false .values []

/-- A function that was moved twice is called once, and each round logs no more than its step. -/
theorem deferred_work_once_handledRounds :
    handledRounds.Tame 0 ∧ freshHost.Tame ∧
    ∃ (p : Plan) (s : Host),
      handledRounds.build (Runner.within 4) [] 4 freshHost = .value p freshHost ∧
      ((p.assemble (Runner.within 4)).run 4 freshHost).state? = some s ∧
      s.logged "function" ≤ 1 ∧ s.logged "round" ≤ s.logged "step" ∧ s.logged "step" = 3 := by
  have htame : handledRounds.Tame 0 := by
    simp [handledRounds, Expr.Tame, Term.Tame, Term.TameBlock, Term.TameAll, Role.depth,
      Joining.left, Holding.role, Prim.tag?, Expr.Marked, Expr.mark?, Expr.places, Term.places,
      Term.placesAll, Place.ofTag]
  have hfresh : freshHost.Tame := ⟨nofun, nofun⟩
  have hdistinct : ((handledRounds.places ++ freshHost.places).map Place.tag).Nodup := by decide
  obtain ⟨p, s, hbuild, hrun, hcalls⟩ : ∃ (p : Plan) (s : Host),
      handledRounds.build (Runner.within 4) [] 4 freshHost = .value p freshHost ∧
      ((p.assemble (Runner.within 4)).run 4 freshHost).state? = some s ∧ s.logged "step" = 3 :=
    ⟨_, _, rfl, rfl, rfl⟩
  obtain ⟨honce, hsteps⟩ := deferred_work_once htame hfresh hdistinct hbuild hrun
  have hfunction := honce "function" (by decide)
  have hround : s.logged "round" + freshHost.logged "step" ≤
      freshHost.logged "round" + s.logged "step" :=
    hsteps ⟨"round", ["step"]⟩ (by decide) "step" rfl
  have hnone : freshHost.logged "function" = 0 ∧ freshHost.logged "round" = 0 ∧
      freshHost.logged "step" = 0 := ⟨rfl, rfl, rfl⟩
  exact ⟨htame, hfresh, p, s, hbuild, hrun, by omega, by omega, hcalls⟩

end Deferral.Script
