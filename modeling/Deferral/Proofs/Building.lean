import Deferral.Script.Session
import Mathlib.Data.Nat.Notation

/-!
# Building runs nothing

An expression computes some of its terms while it builds: what operations hold, and what
control decides on. All other code goes into the plan unread.

`Expr.Calm` says of an expression that each term that is computed while it builds has a
value of the right kind and leaves the host as it was. It says nothing about the code
inside functions, delayed terms and deferred expressions.

* `Expr.Calm.build`: a calm expression builds a plan, and the host is as before, by
  induction on what was computed.
* `World.clear_fill`: a slot that was filled and emptied is an empty slot.
* `building_inert`: **building runs nothing**, nor does showing or dropping what was built.
-/

namespace Deferral

variable {σ α β : Type} {n : ℕ}

/-- After work that gives a value. -/
theorem Work.bind_value {w : Work σ α} {f : α → Work σ β} {a : α} {s s' : σ}
    (h : w n s = .value a s') : (w >>= f) n s = f a n s' := by rw [bind_run, h]

theorem Work.get_bind_run (f : σ → Work σ β) (s : σ) : (get >>= f) n s = f s n s := rfl

namespace Script

/-- The term has a value, and leaves the host as it was. -/
def Term.Still (r : Runner Plan Task) (n : ℕ) (s : Host) (env : Env) (t : Term)
    (v : Value) : Prop := t.eval r env n s = .value v s

/-- The value is of the kind that the operation holds. -/
inductive Holding.Fits (c : Channel) : Holding → Value → Prop where
  | value (form : Form) (v : Value) : Fits c (.value form) v
  | failure (form : Form) {v e : Value} (h : c.failure? v = some e) : Fits c (.failure form) v
  | success (form : Form) (v : Value) : Fits c (.outcome form) (.ok v)
  | failed (form : Form) {v e : Value} (h : c.failure? v = some e) : Fits c (.outcome form) (.err v)
  | line (t : String) : Fits c .putLine (.text t)
  | number (i : Int64) : Fits c .putLine (.int i)
  | duration (i : Int64) : Fits c .sleep (.int i)

/-- All terms that are computed while the expression builds have values, and leave the host
as it was. -/
inductive Expr.Calm (r : Runner Plan Task) (n : ℕ) (s : Host) : Env → Expr → Prop where
  | condTrue {env : Env} {c : Term} {a b : Expr} (hc : c.Still r n s env (.bool true))
      (ha : Calm r n s env a) : Calm r n s env (.cond c a b)
  | condFalse {env : Env} {c : Term} {a b : Expr} (hc : c.Still r n s env (.bool false))
      (hb : Calm r n s env b) : Calm r n s env (.cond c a b)
  | bind {env : Env} {x : String} {t : Term} {e : Expr} {v : Value} (ht : t.Still r n s env v)
      (he : Calm r n s ((x, v) :: env) e) : Calm r n s env (.bind x t e)
  | after {env : Env} {t : Term} {e : Expr} {v : Value} (ht : t.Still r n s env v)
      (he : Calm r n s env e) : Calm r n s env (.after t e)
  | casesRight {env : Env} {t : Term} {x y : String} {a b : Expr} {v w : Value}
      (ht : t.Still r n s env v) (hv : v.side? = some (.right w))
      (ha : Calm r n s ((x, w) :: env) a) : Calm r n s env (.cases t x a y b)
  | casesLeft {env : Env} {t : Term} {x y : String} {a b : Expr} {v w : Value}
      (ht : t.Still r n s env v) (hv : v.side? = some (.left w))
      (hb : Calm r n s ((y, w) :: env) b) : Calm r n s env (.cases t x a y b)
  | getLine (env : Env) : Calm r n s env .getLine
  | hold {env : Env} {op : Holding} {t : Term} {v : Value} (ht : t.Still r n s env v)
      (hv : op.Fits s.channel v) : Calm r n s env (.hold op t)
  | delay (env : Env) (op : Delaying) (t : Term) : Calm r n s env (.delay op t)
  | defer (env : Env) (e : Expr) : Calm r n s env (.defer e)
  | map {env : Env} {e : Expr} (op : Mapping) (he : Calm r n s env e) (x : String) (body : Term) :
      Calm r n s env (.map op e x body)
  | mapConst {env : Env} {e : Expr} {t : Term} {v : Value} (he : Calm r n s env e)
      (ht : t.Still r n s env v) : Calm r n s env (.mapConst e t)
  | wrap {env : Env} {e : Expr} (op : Wrapping) (he : Calm r n s env e) :
      Calm r n s env (.wrap op e)
  | chain {env : Env} {e : Expr} (op : Chaining) (he : Calm r n s env e) (x : String)
      (body : Expr) : Calm r n s env (.chain op e x body)
  | join {env : Env} {a b : Expr} (op : Joining) (ha : Calm r n s env a) (hb : Calm r n s env b) :
      Calm r n s env (.join op a b)
  | zipWith {env : Env} {a b : Expr} (form : Form) (ha : Calm r n s env a) (hb : Calm r n s env b)
      (x y : String) (body : Term) : Calm r n s env (.zipWith form a b x y body)
  | loop {env : Env} {seed : Term} {v : Value} (form : Form) (ht : seed.Still r n s env v)
      (x : String) (step : Expr) : Calm r n s env (.loop form seed x step)

variable {r : Runner Plan Task} {s : Host} {env : Env} {e : Expr}

/-- What the channel takes for a failure is there at once. -/
theorem failureOf_run {κ : Type} {w : World κ} {v e : Value} (h : w.channel.failure? v = some e) :
    failureOf v n w = .value e w := by
  rw [failureOf, Work.get_bind_run, h]
  rfl

/-- A value that fits is held as it is. -/
theorem Holding.Fits.ofHolding {op : Holding} {v : Value} (h : op.Fits s.channel v) :
    ∃ p, Plan.ofHolding op v n s = .value p s := by
  cases h with
  | value form v => exact ⟨_, rfl⟩
  | @failure form v e h =>
    refine ⟨.failure form e, ?_⟩
    rw [Plan.ofHolding, map_eq_pure_bind, Work.bind_value (failureOf_run h)]
    rfl
  | success form v => exact ⟨_, rfl⟩
  | @failed form v e h =>
    refine ⟨.outcome form (.error e), ?_⟩
    rw [Plan.ofHolding, map_eq_pure_bind, outcomeOf, Value.toExcept?, bind_assoc,
      Work.bind_value (failureOf_run h)]
    rfl
  | line t => exact ⟨_, rfl⟩
  | number i => exact ⟨_, rfl⟩
  | duration i => exact ⟨_, rfl⟩

/-- **A calm expression builds a plan**, and the host is as before. -/
theorem Expr.Calm.build (h : e.Calm r n s env) : ∃ p, e.build r env n s = .value p s := by
  induction h with
  | condTrue hc _ ih | condFalse hc _ ih =>
    obtain ⟨p, hp⟩ := ih
    exact ⟨p, by rw [Expr.build, Work.bind_value hc]; exact hp⟩
  | bind ht _ ih | after ht _ ih =>
    obtain ⟨p, hp⟩ := ih
    exact ⟨p, by rw [Expr.build, Work.bind_value ht]; exact hp⟩
  | casesRight ht hv _ ih | casesLeft ht hv _ ih =>
    obtain ⟨p, hp⟩ := ih
    exact ⟨p, by rw [Expr.build, Work.bind_value ht, hv]; exact hp⟩
  | getLine | delay | defer => exact ⟨_, rfl⟩
  | hold ht hv =>
    obtain ⟨p, hp⟩ := hv.ofHolding (n := n)
    exact ⟨p, by rw [Expr.build, Work.bind_value ht]; exact hp⟩
  -- code inside a function goes into the plan, so there is nothing to say about it
  | map op _ x body ih | wrap op _ ih | chain op _ x body ih =>
    obtain ⟨p, hp⟩ := ih
    exact ⟨_, by rw [Expr.build, Work.bind_value hp]; rfl⟩
  | mapConst _ ht ih =>
    obtain ⟨p, hp⟩ := ih
    exact ⟨_, by rw [Expr.build, Work.bind_value hp, Work.bind_value ht]; rfl⟩
  | join op _ _ iha ihb | zipWith form _ _ x y body iha ihb =>
    obtain ⟨p, hp⟩ := iha
    obtain ⟨q, hq⟩ := ihb
    exact ⟨_, by rw [Expr.build, Work.bind_value hp, Work.bind_value hq]; rfl⟩
  | loop form ht x step => exact ⟨_, by rw [Expr.build, Work.bind_value ht]; rfl⟩

/-- What an expression builds is shown by building it, and looking at the plan. -/
theorem exists_exprLayout_eq (r : Runner Plan Task) (e : Expr) :
    ∃ f : Plan → Layout, exprLayout r e = f <$> e.build r [] := by
  unfold exprLayout
  split
  · next a b =>
    -- the operands can be read off the plan
    refine ⟨fun
      | .join _ p q => ((p.assemble r).zip (q.assemble r)).layout
          (fun x => (Value.pair x.1 x.2).layout) Value.layout
      | p => (p.assemble r).layout, ?_⟩
    rw [Expr.build, map_bind]
    refine bind_congr fun p => ?_
    rw [map_bind]
    rfl
  · next a =>
    refine ⟨fun
      | .wrap _ p => (p.assemble r).observe.layout (fun x => (Value.ofExcept x).layout) Value.layout
      | p => (p.assemble r).layout, ?_⟩
    rw [Expr.build, map_bind]
    rfl
  · exact ⟨fun p => (p.assemble r).layout, (map_eq_pure_bind _ _).symm⟩

section Slots

variable {κ : Type} {name : String}

theorem lookup_put (name : String) (k : α) (es : List (String × α)) :
    (put name k es).lookup name = some k := by
  induction es with
  | nil => simp [put]
  | cons e es ih =>
    rw [put]
    split
    · simp
    · next h => rw [List.lookup_cons, beq_false_of_ne (Ne.symm h), ih]

theorem filter_put (name : String) (k : α) (es : List (String × α)) :
    (put name k es).filter (fun e => e.1 != name) = es.filter fun e => e.1 != name := by
  induction es with
  | nil => simp [put]
  | cons e es ih =>
    rw [put]
    split
    · next h => simp [h]
    · next h => simp [h, ih]

/-- A slot that was filled and emptied is an empty slot. -/
theorem World.clear_fill (w : World κ) (k : κ) : (w.fill name k).clear name = w.clear name := by
  simp only [fill, clear, filter_put]

theorem peekSlot_run {w : World κ} {k : κ} (h : w.slots.lookup name = some k) :
    peekSlot name n w = .value k w := by
  rw [peekSlot, Work.get_bind_run, h]
  rfl

theorem takeSlot_run {w : World κ} {k : κ} (h : w.slots.lookup name = some k) :
    takeSlot name n w = .value k (w.clear name) := by
  rw [takeSlot, Work.bind_value (peekSlot_run h)]
  rfl

end Slots

/-- The worlds are the same but for what is in their slots. -/
structure World.SameBeside {κ : Type} (w w' : World κ) : Prop where
  journal : w'.journal = w.journal
  tracing : w'.tracing = w.tracing
  channel : w'.channel = w.channel
  cells : w'.cells = w.cells
  input : w'.input = w.input
  printed : w'.printed = w.printed

/-- **Building runs nothing.** A calm expression builds a plan, in any environment and with any
runner, and leaves the host as it was, whatever the code inside it would do when it runs. To show
the expression, or what was built, changes nothing; to drop what was built leaves an empty slot. -/
theorem building_inert (r : Runner Plan Task) (n : ℕ) (s : Host) :
    (∀ env e, Expr.Calm r n s env e → ∃ p, e.build r env n s = .value p s) ∧
    (∀ e, Expr.Calm r n s [] e →
      (∃ text, (Step.displayExpr e).perform r n s = .value (.shown text) s) ∧
      ∀ name, ∃ p, (Step.build name e).perform r n s = .value .built (s.fill name p)) ∧
    ∀ name p, s.SameBeside (s.fill name p) ∧
      (∀ spread, ∃ text, (Step.display name spread).perform r n (s.fill name p) =
        .value (.shown text) (s.fill name p)) ∧
      (Step.drop name).perform r n (s.fill name p) = .value .dropped (s.clear name) ∧
      s.SameBeside (s.clear name) := by
  refine ⟨fun env e h => h.build, fun e h => ⟨?_, fun name => ?_⟩, fun name p => ?_⟩
  · obtain ⟨p, hp⟩ := h.build
    obtain ⟨f, hf⟩ := exists_exprLayout_eq r e
    exact ⟨_, by rw [Step.perform, hf, bind_map_left, Work.bind_value hp]; rfl⟩
  · obtain ⟨p, hp⟩ := h.build
    exact ⟨p, by rw [Step.perform, Work.bind_value hp]; rfl⟩
  · have hslot : (s.fill name p).slots.lookup name = some p := lookup_put name p s.slots
    refine ⟨⟨rfl, rfl, rfl, rfl, rfl, rfl⟩, fun spread => ?_, ?_, ⟨rfl, rfl, rfl, rfl, rfl, rfl⟩⟩
    · exact ⟨_, by rw [Step.perform, Work.bind_value (peekSlot_run hslot)]; rfl⟩
    · rw [Step.perform, Work.bind_value (takeSlot_run hslot), World.clear_fill]
      rfl

/-- Code that would log, write a cell, print, read, panic, look for a slot that is not there, and
never end. -/
def hazard : Expr :=
  .bind "k" (.prim .add [.int 1, .int 2]) <|
    .cond (.prim .lt [.var "k", .int 5])
      (.chain (.bind .direct)
        (.map (.map .generic)
          (.join (.zip .direct)
            (.delay .work (.block [.prim .log [.int 1], .prim (.set "c") [.int 1],
              .run (.hold .putLine (.text "x")), .run .getLine]))
            (.defer (.slot "nowhere")))
          "x" (.prim .panicText [.text "boom"]))
        "y" (.loop .direct (.var "y") "z" (.hold (.value .direct) (.prim .left [.var "z"]))))
      (.slot "nowhere")

/-- The hazards are built into a slot and dropped from it, and the host is as it was. -/
theorem building_inert_hazard :
    Expr.Calm (Runner.within 1) 1 (World.fresh true .values [10]) [] hazard ∧
    ∃ p, (Step.build "a" hazard).perform (Runner.within 1) 1 (World.fresh true .values [10]) =
        .value .built (World.fill "a" p (World.fresh true .values [10])) ∧
      (Step.drop "a").perform (Runner.within 1) 1
          (World.fill "a" p (World.fresh true .values [10])) =
        .value .dropped (World.fresh true .values [10]) := by
  obtain ⟨-, hbuild, hkept⟩ := building_inert (Runner.within 1) 1 (World.fresh true .values [10])
  have hcalm : Expr.Calm (Runner.within 1) 1 (World.fresh true .values [10]) [] hazard :=
    .bind (v := .int 3) rfl <| .condTrue rfl <|
      .chain _ (.map _ (.join _ (.delay ..) (.defer ..)) ..) ..
  obtain ⟨p, hp⟩ := (hbuild hazard hcalm).2 "a"
  exact ⟨hcalm, p, hp, (hkept "a" p).2.2.1⟩

end Script
end Deferral
