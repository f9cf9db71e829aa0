import Deferral.Host
import Deferral.Proofs.Steady
import Mathlib.Computability.Partrec

/-!
# What work does in direct style

A `Course` is what a piece of work does when it has all the time it needs: from
each state it leads to an outcome, a value or a panic with the state reached, or
it has no end. Courses are written in direct style: panics, state and the absence
of an end are those of `ExceptT`, `StateT` and `Part`, and there is no budget. A
loop is the fixed point of its round (`Course.iterate`).

`Follows w c` says that the work `w` follows the course `c`: `w` is steady, and
its outcomes under all budgets together are those of `c`.

* `Follows.bind`, `Follows.caught`: sequences and caught panics.
* `Follows.limit`: steady work follows the course of its own outcomes.
* `Follows.iterate`: a loop of steps that follow their courses follows the loop
  of these courses, though its budget bounds the rounds and the fixed point does
  not.
* `Follows.not_dom_iff`: the course has no end exactly where every budget is used
  up.
-/

namespace Deferral

variable {σ τ α β : Type}

namespace Ending

/-- The outcome, with the state reached, if there is an answer. -/
def outcome? : Ending σ α → Option (Checked α × σ)
  | .value a s => some (.ok a, s)
  | .panic p s => some (.error p, s)
  | .exhausted => none

theorem outcome?_eq_ok {e : Ending σ α} {a : α} {s : σ} :
    e.outcome? = some (.ok a, s) ↔ e = .value a s := by
  cases e <;> simp [outcome?]

theorem outcome?_eq_error {e : Ending σ α} {p : Payload} {s : σ} :
    e.outcome? = some (.error p, s) ↔ e = .panic p s := by
  cases e <;> simp [outcome?]

theorem outcome?_eq_none {e : Ending σ α} : e.outcome? = none ↔ e = .exhausted := by
  cases e <;> simp [outcome?]

end Ending

/-- A larger budget keeps the outcome. -/
theorem Work.Steady.outcome?_eq {w : Work σ α} (hw : w.Steady) {m n : ℕ} (hmn : m ≤ n) {s : σ}
    {o : Checked α × σ} (h : (w m s).outcome? = some o) : (w n s).outcome? = some o := by
  have hm : w m s ≠ .exhausted := by
    intro he; simp [he, Ending.outcome?] at h
  rw [hw hmn hm, h]

/-- A computation in direct style on a state `σ`, which may panic or have no end. -/
abbrev Course (σ : Type) : Type → Type := ExceptT Payload (StateT σ Part)

namespace Course

/-- The outcome from a state, if there is one. -/
def runFrom (c : Course σ α) (s : σ) : Part (Checked α × σ) := c.run.run s

/-- Turns a panic into a value; the state reached by the panic stays. -/
def caught (c : Course σ α) : Course σ (Checked α) := ExceptT.mk (Except.ok <$> c.run)

/-- Adds an entry to the trace. -/
def note [Tracing σ] (t : Trace) : Course σ Unit := modify (Tracing.note t)

/-- One round of a loop: with what it goes on after a left value, or how it ends.
The rounds are counted. -/
def round (step : τ → Course σ (Either τ α)) :
    τ × ℕ × σ →. (Checked (α × ℕ) × σ) ⊕ (τ × ℕ × σ)
  | (t, done, s) => ((step t).runFrom s).map fun
    | (.ok (.left t'), s') => .inr (t', done + 1, s')
    | (.ok (.right a), s') => .inl (.ok (a, done + 1), s')
    | (.error p, s') => .inl (.error p, s')

/-- Repeats `step` from `seed` until it gives a right value; gives that value and
the number of rounds. -/
def iterate (step : τ → Course σ (Either τ α)) (seed : τ) : Course σ (α × ℕ) :=
  ExceptT.mk fun s => (round step).fix (seed, 0, s)

theorem mem_pure {a : α} {s : σ} {o : Checked α × σ} :
    o ∈ (pure a : Course σ α).runFrom s ↔ o = (.ok a, s) := Part.mem_some_iff

theorem mem_throw {p : Payload} {s : σ} {o : Checked α × σ} :
    o ∈ (throw p : Course σ α).runFrom s ↔ o = (.error p, s) := Part.mem_some_iff

theorem mem_modify {f : σ → σ} {s : σ} {o : Checked Unit × σ} :
    o ∈ (modify f : Course σ Unit).runFrom s ↔ o = (.ok (), f s) := by
  change o ∈ (Except.ok <$> (modify f : StateT σ Part Unit)).run s ↔ _
  simp

/-- A sequence has the outcomes of its second part after a value, and the panics of its first part.
-/
theorem mem_bind {c : Course σ α} {f : α → Course σ β} {s : σ} {o : Checked β × σ} :
    o ∈ (c >>= f).runFrom s ↔ (∃ a s', (.ok a, s') ∈ c.runFrom s ∧ o ∈ (f a).runFrom s') ∨
      ∃ p s', (.error p, s') ∈ c.runFrom s ∧ o = (.error p, s') := by
  simp only [runFrom, ExceptT.run_bind, StateT.run_bind, Part.bind_eq_bind, Part.mem_bind_iff,
    Prod.exists]
  constructor
  · rintro ⟨_ | a, s', hr, ho⟩
    · exact .inr ⟨_, s', hr, Part.mem_some_iff.1 ho⟩
    · exact .inl ⟨a, s', hr, ho⟩
  · rintro (⟨a, s', hr, ho⟩ | ⟨p, s', hr, rfl⟩)
    · exact ⟨_, _, hr, ho⟩
    · exact ⟨_, _, hr, Part.mem_some _⟩

/-- A caught panic is a value, in the state it has left. -/
theorem mem_caught {c : Course σ α} {s : σ} {o : Checked (Checked α) × σ} :
    o ∈ c.caught.runFrom s ↔ ∃ r ∈ c.runFrom s, o = (.ok r.1, r.2) := by
  change o ∈ (Except.ok <$> c.run).run s ↔ _
  simp only [StateT.run_map, Part.map_eq_map, Part.mem_map_iff, runFrom, eq_comm]

section Round

variable {step : τ → Course σ (Either τ α)} {t : τ} {k : ℕ} {s s' : σ}

/-- A left value is where the loop goes on, with one round more behind it. -/
theorem round_left {t' : τ} (h : (.ok (.left t'), s') ∈ (step t).runFrom s) :
    .inr (t', k + 1, s') ∈ round step (t, k, s) := Part.mem_map_iff _ |>.2 ⟨_, h, rfl⟩

/-- A right value ends the loop, and the round counts. -/
theorem round_right {a : α} (h : (.ok (.right a), s') ∈ (step t).runFrom s) :
    .inl (.ok (a, k + 1), s') ∈ round step (t, k, s) := Part.mem_map_iff _ |>.2 ⟨_, h, rfl⟩

theorem round_error {p : Payload} (h : (.error p, s') ∈ (step t).runFrom s) :
    .inl (.error p, s') ∈ round step (t, k, s) := Part.mem_map_iff _ |>.2 ⟨_, h, rfl⟩

/-- A loop goes on, ends with a value or panics as its first round says. -/
theorem fix_round_cases {o : Checked (α × ℕ) × σ} (h : o ∈ (round step).fix (t, k, s)) :
    (∃ t' s', (.ok (.left t'), s') ∈ (step t).runFrom s ∧
        .inr (t', k + 1, s') ∈ round step (t, k, s) ∧ o ∈ (round step).fix (t', k + 1, s')) ∨
      (∃ a s', (.ok (.right a), s') ∈ (step t).runFrom s ∧ o = (.ok (a, k + 1), s')) ∨
      ∃ p s', (.error p, s') ∈ (step t).runFrom s ∧ o = (.error p, s') := by
  -- the fixed point is left in the first round, or gone on with after it
  rcases PFun.mem_fix_iff.1 h with h | ⟨x, hx, h⟩
  · obtain ⟨⟨_ | (t' | a), s'⟩, hr, he⟩ := (Part.mem_map_iff _).1 h
    · exact .inr (.inr ⟨_, s', hr, (Sum.inl.inj he).symm⟩)
    · cases he
    · exact .inr (.inl ⟨a, s', hr, (Sum.inl.inj he).symm⟩)
  · obtain ⟨⟨_ | (t' | a), s'⟩, hr, he⟩ := (Part.mem_map_iff _).1 hx
    · cases he
    · obtain rfl := Sum.inr.inj he
      exact .inl ⟨t', s', hr, hx, h⟩
    · cases he

end Round

end Course

/-- The work is steady, and its outcomes under all budgets are those of the course. -/
structure Follows (w : Work σ α) (c : Course σ α) : Prop where
  steady : w.Steady
  mem_iff : ∀ s o, o ∈ c.runFrom s ↔ ∃ n, (w n s).outcome? = some o

/-- The course of the outcomes of steady work. -/
def Work.limit (w : Work σ α) : Course σ α :=
  ExceptT.mk fun s => Nat.rfindOpt fun n => (w n s).outcome?

namespace Follows

/-- Steady work follows the course of its own outcomes. -/
theorem limit {w : Work σ α} (h : w.Steady) : Follows w w.limit :=
  ⟨h, fun _ _ => Nat.rfindOpt_mono fun hmn ho => h.outcome?_eq hmn ho⟩

protected theorem pure (a : α) : Follows (pure a : Work σ α) (pure a) :=
  ⟨Work.steady_pure a, fun s o => Course.mem_pure.trans (by simp [Ending.outcome?, eq_comm])⟩

protected theorem throw (p : Payload) : Follows (Work.panic p : Work σ α) (throw p) :=
  ⟨Work.steady_panic p, fun s o =>
    Course.mem_throw.trans (by simp [Work.panic, Ending.outcome?, eq_comm])⟩

protected theorem modify (f : σ → σ) : Follows (Work.update f) (modify f) :=
  ⟨Work.steady_update f, fun s o =>
    Course.mem_modify.trans (by simp [Work.update, Ending.outcome?, eq_comm])⟩

protected theorem note [Tracing σ] (t : Trace) : Follows (emit t : Work σ Unit) (Course.note t) :=
  .modify _

/-- A value of `w` leads to that of `f`, under a budget that is enough for both. -/
protected theorem bind {w : Work σ α} {c : Course σ α} {f : α → Work σ β} {g : α → Course σ β}
    (hw : Follows w c) (hf : ∀ a, Follows (f a) (g a)) : Follows (w >>= f) (c >>= g) := by
  refine ⟨hw.steady.bind fun a => (hf a).steady, fun s o => ?_⟩
  rw [Course.mem_bind]
  constructor
  · rintro (⟨a, s', ha, ho⟩ | ⟨p, s', hp, rfl⟩)
    · obtain ⟨n, hn⟩ := (hw.mem_iff s _).1 ha
      obtain ⟨m, hm⟩ := ((hf a).mem_iff s' o).1 ho
      have hw' := Ending.outcome?_eq_ok.1 (hw.steady.outcome?_eq (le_max_left n m) hn)
      -- the larger budget is enough for both
      refine ⟨max n m, ?_⟩
      rw [Work.bind_run, hw']
      exact (hf a).steady.outcome?_eq (le_max_right n m) hm
    · obtain ⟨n, hn⟩ := (hw.mem_iff s _).1 hp
      exact ⟨n, by rw [Work.bind_run, Ending.outcome?_eq_error.1 hn]; rfl⟩
  · rintro ⟨n, hn⟩
    rw [Work.bind_run] at hn
    cases hws : w n s with
    | value a s' =>
      rw [hws] at hn
      exact .inl ⟨a, s', (hw.mem_iff s _).2 ⟨n, by rw [hws]; rfl⟩, ((hf a).mem_iff s' o).2 ⟨n, hn⟩⟩
    | panic p s' =>
      rw [hws] at hn
      exact .inr ⟨p, s', (hw.mem_iff s _).2 ⟨n, by rw [hws]; rfl⟩, (Option.some.inj hn).symm⟩
    | exhausted => simp [hws, Ending.outcome?] at hn

protected theorem map {w : Work σ α} {c : Course σ α} (hw : Follows w c) (f : α → β) :
    Follows (f <$> w) (do return f (← c)) := by
  rw [map_eq_pure_bind]
  exact hw.bind fun a => .pure (f a)

protected theorem caught {w : Work σ α} {c : Course σ α} (hw : Follows w c) :
    Follows w.caught c.caught := by
  refine ⟨hw.steady.caught, fun s o => ?_⟩
  -- to catch changes the outcome under each budget in the same way
  have hout : ∀ n, (w.caught n s).outcome? = (w n s).outcome?.map fun r => (.ok r.1, r.2) := by
    intro n
    simp only [Work.caught]
    cases w n s <;> rfl
  simp only [Course.mem_caught, hw.mem_iff, hout, Option.map_eq_some_iff]
  constructor
  · rintro ⟨r, ⟨n, hn⟩, rfl⟩
    exact ⟨n, r, hn, rfl⟩
  · rintro ⟨n, r, hn, rfl⟩
    exact ⟨r, ⟨n, hn⟩, rfl⟩

section Loop

variable {w : τ → Work σ (Either τ α)} {c : τ → Course σ (Either τ α)} (h : ∀ t, Follows (w t) (c t))

include h

/-- What a loop gives within a number of rounds is in the fixed point. -/
theorem mem_fix_of_iterateFrom {n m k : ℕ} {t : τ} {s : σ} {o : Checked (α × ℕ) × σ}
    (ho : (Work.iterateFrom w n m k t s).outcome? = some o) : o ∈ (Course.round c).fix (t, k, s) := by
  -- on the rounds allowed; the budget of a round stays the same
  induction m generalizing k t s with
  | zero => simp [Work.iterateFrom, Ending.outcome?] at ho
  | succ m ih =>
    have hc : ∀ r, (w t n s).outcome? = some r → r ∈ (c t).runFrom s :=
      fun r hr => ((h t).mem_iff s r).2 ⟨n, hr⟩
    cases hws : w t n s with
    | value e s' =>
      rw [hws] at hc
      cases e with
      | left t' =>
        rw [Work.iterateFrom_left hws] at ho
        rw [PFun.fix_fwd_eq (Course.round_left (hc _ rfl))]
        exact ih ho
      | right a =>
        rw [Work.iterateFrom_right hws] at ho
        obtain rfl := Option.some.inj ho
        exact PFun.fix_stop (Course.round_right (hc _ rfl))
    | panic p s' =>
      rw [hws] at hc
      rw [Work.iterateFrom_panic hws] at ho
      obtain rfl := Option.some.inj ho
      exact PFun.fix_stop (Course.round_error (hc _ rfl))
    | exhausted => simp [Work.iterateFrom_exhausted hws, Ending.outcome?] at ho

/-- An outcome in the fixed point is reached under some budget: one more round
than the rest needs, and enough for the round itself. -/
theorem exists_iterateFrom {x : τ × ℕ × σ} {o : Checked (α × ℕ) × σ}
    (ho : o ∈ (Course.round c).fix x) :
    ∃ n, (Work.iterateFrom w n n x.2.1 x.1 x.2.2).outcome? = some o := by
  -- on the way through the fixed point, backwards from where it is left
  refine PFun.fixInduction ho fun x ho ih => ?_
  obtain ⟨t, k, s⟩ := x
  rcases Course.fix_round_cases ho with ⟨t', s', hr, hx, -⟩ | ⟨a, s', hr, rfl⟩ | ⟨p, s', hr, rfl⟩
  · obtain ⟨n, hn⟩ := ((h t).mem_iff s _).1 hr
    obtain ⟨m, hm⟩ := ih _ hx
    -- this round needs `n`, the rest `m` and one round more: their sum is enough
    have hw := Ending.outcome?_eq_ok.1 ((h t).steady.outcome?_eq (Nat.le_add_right n (m + 1)) hn)
    have he : Work.iterateFrom w m m (k + 1) t' s' ≠ .exhausted := by
      intro he; simp [he, Ending.outcome?] at hm
    refine ⟨n + (m + 1), ?_⟩
    rw [← Nat.add_assoc] at hw ⊢
    rw [Work.iterateFrom_left hw]
    rw [Work.iterateFrom_eq_of_le (fun t => (h t).steady) (by omega) (by omega) _ _ _ he]
    exact hm
  · obtain ⟨n, hn⟩ := ((h t).mem_iff s _).1 hr
    have hw := Ending.outcome?_eq_ok.1 ((h t).steady.outcome?_eq (Nat.le_succ n) hn)
    exact ⟨n + 1, by rw [Work.iterateFrom_right hw]; rfl⟩
  · obtain ⟨n, hn⟩ := ((h t).mem_iff s _).1 hr
    have hw := Ending.outcome?_eq_error.1 ((h t).steady.outcome?_eq (Nat.le_succ n) hn)
    exact ⟨n + 1, by rw [Work.iterateFrom_panic hw]; rfl⟩

/-- **Loops.** The bounded loops of the work approach the fixed point. -/
theorem iterate (seed : τ) : Follows (Work.iterate w seed) (Course.iterate c seed) :=
  ⟨Work.steady_iterate (fun t => (h t).steady) seed, fun _ _ =>
    ⟨exists_iterateFrom h, fun ⟨_, hn⟩ => mem_fix_of_iterateFrom h hn⟩⟩

end Loop

section Readings

variable {w : Work σ α} {c : Course σ α} (h : Follows w c)

include h

theorem ok_mem_iff {a : α} {s s' : σ} : (.ok a, s') ∈ c.runFrom s ↔ ∃ n, w n s = .value a s' := by
  simp only [h.mem_iff, Ending.outcome?_eq_ok]

theorem error_mem_iff {p : Payload} {s s' : σ} :
    (.error p, s') ∈ c.runFrom s ↔ ∃ n, w n s = .panic p s' := by
  simp only [h.mem_iff, Ending.outcome?_eq_error]

/-- There is no end exactly where no budget is enough. -/
theorem not_dom_iff {s : σ} : ¬(c.runFrom s).Dom ↔ ∀ n, w n s = .exhausted := by
  rw [Part.dom_iff_mem, not_exists]
  constructor
  · intro hs n
    rw [← Ending.outcome?_eq_none, Option.eq_none_iff_forall_ne_some]
    exact fun o ho => hs o ((h.mem_iff s o).2 ⟨n, ho⟩)
  · intro hs o ho
    obtain ⟨n, hn⟩ := (h.mem_iff s o).1 ho
    simp [hs n, Ending.outcome?] at hn

end Readings

end Follows
end Deferral
