import Deferral.Proofs.Adequacy

/-!
# The rounds of a loop

A loop of actions goes through seeds one after the other: as long as the round on a
seed gives a left value, that is the next seed. `Passes` are the rounds with left
values, with the state threaded through them, and `Closes` says how a last round
ends the loop, with the entry that the trace then gets.

* `Action.rest_eq_of_passes`, `Action.exists_passes`: under a budget, a loop ends
  exactly if there are such rounds, and as they say.
* `Action.exists_within`: rounds that end under some budgets end under all large
  ones, if the steps are steady, which those made of host code are
  (`Action.steady_round`).
* `Records.rounds`: a host that lists the seeds of its rounds finds those of the
  loop, in order.
* `Descends.exists_rounds`: where rounds end and left values decrease a measure,
  there is a last round, and as many before it as the measure allows.
-/

namespace Deferral

variable {σ ε τ β : Type}

/-- The state reached, if there is an answer. -/
def Ending.state? {α : Type} : Ending σ α → Option σ
  | .value _ s | .panic _ s => some s
  | .exhausted => none

/-- Rounds on the seeds `ts`, from the seed `t` and the state `s`, all with left
values. After them it is the turn of the seed `t₁`, in the state `s₁`. -/
inductive Passes (ends : τ → σ → Ending σ (Except ε (Either τ β)) → Prop) :
    List τ → τ → σ → τ → σ → Prop where
  | here {t : τ} {s : σ} : Passes ends [] t s t s
  | left {t t' t₁ : τ} {s s' s₁ : σ} {ts : List τ} (h : ends t s (.value (.ok (.left t')) s'))
      (hs : Passes ends ts t' s' t₁ s₁) : Passes ends (t :: ts) t s t₁ s₁

/-- How a loop ends with its `k`th round. The trace is told so, unless the round
panicked. -/
inductive Closes [Tracing σ] (k : ℕ) :
    Ending σ (Except ε (Either τ β)) → Ending σ (Except ε β) → Prop where
  | finished {b : β} {s : σ} : Closes k (.value (.ok (.right b)) s) (.value (.ok b)
      (Tracing.note (.message .trace "tail_rec_m loop finished" [("iterations", .number k)]) s))
  | failed {e : ε} {s : σ} : Closes k (.value (.error e) s) (.value (.error e)
      (Tracing.note (.message .trace "tail_rec_m loop failed" [("iterations", .number k)]) s))
  | panicked {p : Payload} {s : σ} : Closes k (.panic p s) (.panic p s)

/-- The rounds of a loop from `seed` and `s` that ends with `e`: left values on the
seeds `ts`, and a last round on `t`. -/
def Rounds [Tracing σ] (ends : τ → σ → Ending σ (Except ε (Either τ β)) → Prop) (seed : τ) (s : σ)
    (ts : List τ) (t : τ) (e : Ending σ (Except ε β)) : Prop :=
  ∃ s₁ e₁, Passes ends ts seed s t s₁ ∧ ends t s₁ e₁ ∧ Closes (ts.length + 1) e₁ e

theorem Passes.mono {ends ends' : τ → σ → Ending σ (Except ε (Either τ β)) → Prop}
    (h : ∀ t s e, ends t s e → ends' t s e) {ts : List τ} {t t₁ : τ} {s s₁ : σ}
    (hp : Passes ends ts t s t₁ s₁) : Passes ends' ts t s t₁ s₁ := by
  induction hp with
  | here => exact .here
  | left hl _ ih => exact .left (h _ _ _ hl) ih

/-- One round more, after the others. -/
theorem Passes.snoc {ends : τ → σ → Ending σ (Except ε (Either τ β)) → Prop} {ts : List τ}
    {t t₁ t₂ : τ} {s s₁ s₂ : σ} (hp : Passes ends ts t s t₁ s₁)
    (h : ends t₁ s₁ (.value (.ok (.left t₂)) s₂)) : Passes ends (ts ++ [t₁]) t s t₂ s₂ := by
  induction hp with
  | here => exact .left h .here
  | left hl _ ih => exact .left hl (ih h)

theorem Closes.ne_exhausted [Tracing σ] {k : ℕ} {e₁ : Ending σ (Except ε (Either τ β))}
    {e : Ending σ (Except ε β)} (h : Closes k e₁ e) : e ≠ .exhausted := by
  cases h <;> simp

/-- A round that ends is the last one unless it gives a left value. -/
theorem left_or_closes [Tracing σ] {e₁ : Ending σ (Except ε (Either τ β))}
    (h : e₁ ≠ .exhausted) :
    (∃ t s, e₁ = .value (.ok (.left t)) s) ∨ ∀ k, ∃ e : Ending σ (Except ε β), Closes k e₁ e := by
  match e₁ with
  | .value (.ok (.left t)) s => exact .inl ⟨t, s, rfl⟩
  | .value (.ok (.right b)) s => exact .inr fun _ => ⟨_, .finished⟩
  | .value (.error e) s => exact .inr fun _ => ⟨_, .failed⟩
  | .panic p s => exact .inr fun _ => ⟨_, .panicked⟩
  | .exhausted => exact absurd rfl h

namespace Action

/-- One round: the step makes the action of its seed, which is evaluated. -/
def round (step : τ → Work σ (Action σ ε (Either τ β))) (t : τ) :
    Work σ (Except ε (Either τ β)) := step t >>= evaluate

/-- How a round ends under the budget `n`. -/
def EndsWithin (step : τ → Work σ (Action σ ε (Either τ β))) (n : ℕ) (t : τ) (s : σ)
    (e : Ending σ (Except ε (Either τ β))) : Prop := round step t n s = e

/-- How a round ends under some budget. -/
def Ends (step : τ → Work σ (Action σ ε (Either τ β))) (t : τ) (s : σ)
    (e : Ending σ (Except ε (Either τ β))) : Prop := ∃ n, round step t n s = e

/-- Steps that are made of host code are steady. -/
theorem steady_round [Tracing σ] {ι : Type} (c : τ → Routine σ ι)
    (k : ι → Recipe σ ε (Either τ β)) (t : τ) :
    (round (fun t => do return (k (← (c t).toWork)).assemble) t).Steady :=
  ((c t).follows.make fun i => (k i).follows).steady

/-- Rounds that end under some budgets end under all that are large enough. -/
theorem exists_within {step : τ → Work σ (Action σ ε (Either τ β))}
    (hs : ∀ t, (round step t).Steady) {ts : List τ} {t t₁ : τ} {s s₁ : σ}
    (hp : Passes (Ends step) ts t s t₁ s₁) :
    ∃ N, ∀ n, N ≤ n → Passes (EndsWithin step n) ts t s t₁ s₁ := by
  -- on the rounds: a budget that is enough for one and for those after it is enough for all
  induction hp with
  | here => exact ⟨0, fun _ _ => .here⟩
  | @left t _ _ _ _ _ _ h _ ih =>
    obtain ⟨m, hm⟩ := h
    obtain ⟨N, hN⟩ := ih
    refine ⟨max m N, fun n hn => .left ?_ (hN n (by omega))⟩
    have hmn : m ≤ n := by omega
    rw [EndsWithin, hs t hmn (by simp [hm]), hm]

variable [Tracing σ]

/-- What is left of a loop after `done` rounds, with at most `more` to go. -/
def rest (step : τ → Work σ (Action σ ε (Either τ β))) (more done : ℕ) (t : τ) :
    Work σ (Except ε β) := fun n s =>
  match Work.iterateFrom (Work.exceptRound (round step)) n more done t s with
  | .value (outcome, rounds) s' => .value outcome (Tracing.note (loopEnded outcome rounds) s')
  | .panic p s' => .panic p s'
  | .exhausted => .exhausted

section Rest

variable {step : τ → Work σ (Action σ ε (Either τ β))} {n more done : ℕ} {t t₁ : τ} {s s' s₁ : σ}

theorem evaluate_loop_eq_rest (seed : τ) :
    (loop seed step).evaluate n s = rest step n 0 seed n s := by
  have hround : (fun t => step t >>= evaluate) = round step := rfl
  rw [evaluate_loop, hround, Work.bind_run, rest, Work.iterateExcept, Work.iterate]
  rcases Work.iterateFrom (Work.exceptRound (round step)) n n 0 seed s with _ | _ | _ <;> rfl

theorem rest_zero : rest step 0 done t n s = .exhausted := rfl

theorem rest_left {t' : τ} (h : round step t n s = .value (.ok (.left t')) s') :
    rest step (more + 1) done t n s = rest step more (done + 1) t' n s' := by
  have hround : Work.exceptRound (round step) t n s = .value (.left t') s' := by
    rw [Work.exceptRound, Work.bind_run, h]
    rfl
  rw [rest, rest, Work.iterateFrom_left hround]

theorem rest_exhausted (h : round step t n s = .exhausted) :
    rest step (more + 1) done t n s = .exhausted := by
  have hround : Work.exceptRound (round step) t n s = .exhausted := by
    rw [Work.exceptRound, Work.bind_run, h]
  rw [rest, Work.iterateFrom_exhausted hround]

/-- A round that closes the loop is its rest. -/
theorem rest_closes {e₁ : Ending σ (Except ε (Either τ β))} {e : Ending σ (Except ε β)}
    (h : round step t n s = e₁) (hc : Closes (done + 1) e₁ e) :
    rest step (more + 1) done t n s = e := by
  cases hc with
  | @finished b s₂ =>
    have hround : Work.exceptRound (round step) t n s = .value (.right (.ok b)) s₂ := by
      rw [Work.exceptRound, Work.bind_run, h]
      rfl
    rw [rest, Work.iterateFrom_right hround]
    rfl
  | @failed e s₂ =>
    have hround : Work.exceptRound (round step) t n s = .value (.right (.error e)) s₂ := by
      rw [Work.exceptRound, Work.bind_run, h]
      rfl
    rw [rest, Work.iterateFrom_right hround]
    rfl
  | @panicked p s₂ =>
    have hround : Work.exceptRound (round step) t n s = .panic p s₂ := by
      rw [Work.exceptRound, Work.bind_run, h]
    rw [rest, Work.iterateFrom_panic hround]

/-- Rounds that come to an end are what the loop does, if they are not too many. -/
theorem rest_eq_of_passes {ts : List τ} (hp : Passes (EndsWithin step n) ts t s t₁ s₁)
    (hlen : ts.length < more) {e : Ending σ (Except ε β)}
    (hc : Closes (done + ts.length + 1) (round step t₁ n s₁) e) : rest step more done t n s = e := by
  -- `done` grows with each round while `ts` shrinks, so the final count stays the same
  induction hp generalizing more done with
  | here =>
    obtain ⟨more, rfl⟩ : ∃ k, more = k + 1 := ⟨more - 1, by omega⟩
    exact rest_closes rfl hc
  | left h _ ih =>
    rw [List.length_cons] at hlen hc
    obtain ⟨more, rfl⟩ : ∃ k, more = k + 1 := ⟨more - 1, by omega⟩
    rw [rest_left h]
    refine ih (by omega) ?_
    rwa [Nat.add_right_comm done 1]

/-- A loop that ends has gone through rounds, no more of them than it was allowed. -/
theorem exists_passes (h : rest step more done t n s ≠ .exhausted) :
    ∃ ts t₁ s₁, ts.length < more ∧ Passes (EndsWithin step n) ts t s t₁ s₁ ∧
      Closes (done + ts.length + 1) (round step t₁ n s₁) (rest step more done t n s) := by
  -- on the rounds allowed; each is a step of `Passes` or closes the loop
  induction more generalizing done t s with
  | zero => exact absurd rest_zero h
  | succ more ih =>
    have hne : round step t n s ≠ .exhausted := fun he => h (rest_exhausted he)
    rcases left_or_closes hne with ⟨t', s', hl⟩ | hc
    · rw [rest_left hl] at h ⊢
      obtain ⟨ts, t₁, s₁, hlen, hp, hc⟩ := ih h
      refine ⟨t :: ts, t₁, s₁, by rw [List.length_cons]; omega, .left hl hp, ?_⟩
      rwa [List.length_cons, ← Nat.add_assoc, Nat.add_right_comm done]
    · obtain ⟨e, hc⟩ := hc (done + 1)
      exact ⟨[], t, s, by simp, .here, by rwa [rest_closes rfl hc]⟩

end Rest

end Action

/-- All rounds of a loop from `seed` and `s` end, and left values decrease `μ`. -/
structure Descends (ends : τ → σ → Ending σ (Except ε (Either τ β)) → Prop) (μ : τ → σ → ℕ)
    (seed : τ) (s : σ) : Prop where
  ended : ∀ ts t s₁, Passes ends ts seed s t s₁ → ∃ e, ends t s₁ e ∧ e ≠ .exhausted
  lt : ∀ ts t s₁ t' s₂, Passes ends ts seed s t s₁ →
    ends t s₁ (.value (.ok (.left t')) s₂) → μ t' s₂ < μ t s₁

namespace Descends

variable {ends : τ → σ → Ending σ (Except ε (Either τ β)) → Prop} {μ : τ → σ → ℕ} {seed t' : τ}
  {s s' : σ}

/-- What holds of all rounds of a loop holds of those after the first one. -/
theorem next (h : Descends ends μ seed s) (hl : ends seed s (.value (.ok (.left t')) s')) :
    Descends ends μ t' s' := by
  constructor
  · intro ts t s₁ hp
    exact h.ended (seed :: ts) t s₁ (.left hl hp)
  · intro ts t s₁ t₁ s₂ hp
    exact h.lt (seed :: ts) t s₁ t₁ s₂ (.left hl hp)

variable [Tracing σ]

/-- No more left values come than the measure allows, and a round that ends is
followed by another one until it is the last. -/
theorem exists_passes (h : Descends ends μ seed s) :
    ∃ ts t s₁ e₁, ts.length ≤ μ seed s ∧ Passes ends ts seed s t s₁ ∧ ends t s₁ e₁ ∧
      ∀ k, ∃ e : Ending σ (Except ε β), Closes k e₁ e := by
  -- on the measure, which a left value makes smaller
  induction hm : μ seed s using Nat.strongRecOn generalizing seed s with
  | _ m ih =>
    obtain ⟨e₁, he, hne⟩ := h.ended [] seed s .here
    rcases left_or_closes hne with ⟨t', s', rfl⟩ | hc
    · have hlt : μ t' s' < μ seed s := h.lt [] seed s t' s' .here he
      obtain ⟨ts, t, s₁, e₁, hlen, hp, he₁, hc⟩ := ih _ (hm ▸ hlt) (h.next he) rfl
      exact ⟨seed :: ts, t, s₁, e₁, by rw [List.length_cons]; omega, .left he hp, he₁, hc⟩
    · exact ⟨[], seed, s, e₁, Nat.zero_le _, .here, he, hc⟩

theorem exists_rounds (h : Descends ends μ seed s) :
    ∃ ts t e, ts.length ≤ μ seed s ∧ e ≠ .exhausted ∧ Rounds ends seed s ts t e := by
  obtain ⟨ts, t, s₁, e₁, hlen, hp, he, hc⟩ := h.exists_passes
  -- the entry of the trace has the number of all rounds, known only now
  obtain ⟨e, hc⟩ := hc (ts.length + 1)
  exact ⟨ts, t, e, hlen, hc.ne_exhausted, s₁, e₁, hp, he, hc⟩

end Descends

/-- `calls` lists the seeds that rounds have started with: a round adds its own, and
an entry of the trace adds nothing. -/
structure Records [Tracing σ] (ends : τ → σ → Ending σ (Except ε (Either τ β)) → Prop)
    (calls : σ → List τ) : Prop where
  round : ∀ t s e s', ends t s e → e.state? = some s' → calls s' = calls s ++ [t]
  note : ∀ x s, calls (Tracing.note x s) = calls s

namespace Records

variable [Tracing σ] {ends : τ → σ → Ending σ (Except ε (Either τ β)) → Prop} {calls : σ → List τ}
  {t t₁ : τ} {s s₁ s' : σ} {ts : List τ}

/-- The seeds of rounds with left values are listed in their order. -/
theorem passes (h : Records ends calls) (hp : Passes ends ts t s t₁ s₁) :
    calls s₁ = calls s ++ ts := by
  induction hp with
  | here => rw [List.append_nil]
  | left hl _ ih => rw [ih, h.round _ _ _ _ hl rfl, List.append_assoc, List.singleton_append]

/-- The seeds of a loop's rounds are listed once each, in order. -/
theorem rounds (h : Records ends calls) {e : Ending σ (Except ε β)}
    (hr : Rounds ends t s ts t₁ e) (hs : e.state? = some s') : calls s' = calls s ++ ts ++ [t₁] := by
  obtain ⟨s₁, e₁, hp, he, hc⟩ := hr
  rw [← h.passes hp]
  cases hc with
  | finished | failed =>
    obtain rfl := Option.some.inj hs
    rw [h.note, h.round _ _ _ _ he rfl]
  | panicked => exact h.round _ _ _ _ he hs

end Records

section Evaluate

variable [Tracing σ] {seed : τ} {step : τ → Work σ (Action σ ε (Either τ β))} {s : σ}
  {e : Ending σ (Except ε β)}

/-- Under a budget, a loop ends as its rounds under that budget say. -/
theorem evaluate_loop_iff_within {n : ℕ} (hne : e ≠ .exhausted) :
    (Action.loop seed step).evaluate n s = e ↔
      ∃ ts t, ts.length < n ∧ Rounds (Action.EndsWithin step n) seed s ts t e := by
  rw [Action.evaluate_loop_eq_rest]
  constructor
  · rintro rfl
    obtain ⟨ts, t, s₁, hlen, hp, hc⟩ := Action.exists_passes hne
    rw [Nat.zero_add] at hc
    exact ⟨ts, t, hlen, s₁, _, hp, rfl, hc⟩
  · rintro ⟨ts, t, hlen, s₁, _, hp, rfl, hc⟩
    rw [← Nat.zero_add ts.length] at hc
    exact Action.rest_eq_of_passes hp hlen hc

/-- A loop of steady steps ends under some budget as its rounds say: the budget is
enough for each of them and for their number. -/
theorem evaluate_loop_iff_ends (hs : ∀ t, (Action.round step t).Steady) (hne : e ≠ .exhausted) :
    (∃ n, (Action.loop seed step).evaluate n s = e) ↔
      ∃ ts t, Rounds (Action.Ends step) seed s ts t e := by
  constructor
  · rintro ⟨n, hn⟩
    obtain ⟨ts, t, -, s₁, e₁, hp, he, hc⟩ := (evaluate_loop_iff_within hne).1 hn
    exact ⟨ts, t, s₁, e₁, hp.mono fun t s e h => ⟨n, h⟩, ⟨n, he⟩, hc⟩
  · rintro ⟨ts, t, s₁, _, hp, ⟨m, rfl⟩, hc⟩
    -- enough for the number of rounds, for the last one and for those before
    obtain ⟨N, hN⟩ := Action.exists_within hs hp
    have hlast : Action.round step t m s₁ ≠ .exhausted := by
      intro he
      rw [he] at hc
      cases hc
    have hm : m ≤ max (ts.length + 1) (max m N) := by omega
    refine ⟨max (ts.length + 1) (max m N), (evaluate_loop_iff_within hne).2 ⟨ts, t, by omega, ?_⟩⟩
    exact ⟨s₁, _, hN _ (by omega), hs t hm hlast, hc⟩

end Evaluate

/-- **Loops.** A loop ends exactly if there are rounds on seeds that each give the
next one as a left value, and a last round with a right value, a failure or a panic.
It ends as the last round does, in the state after all of them, with one more entry
in the trace that has their number, unless there was a panic. The steps are called on
these seeds, in this order. If rounds end and left values decrease a measure, there
are no more of these than it allows, and the loop ends.

Under a budget this holds of the rounds under that budget, which bounds their number.
If waiting longer changes no answer of a step, it holds without budgets. -/
theorem evaluate_loop_iff_rounds [Tracing σ] (seed : τ)
    (step : τ → Work σ (Action σ ε (Either τ β))) (s : σ) :
    (∀ n e, e ≠ .exhausted → ((Action.loop seed step).evaluate n s = e ↔
      ∃ ts t, ts.length < n ∧ Rounds (Action.EndsWithin step n) seed s ts t e)) ∧
    (∀ n calls ts t e s', Records (Action.EndsWithin step n) calls →
      Rounds (Action.EndsWithin step n) seed s ts t e → e.state? = some s' →
        calls s' = calls s ++ ts ++ [t]) ∧
    (∀ n μ, Descends (Action.EndsWithin step n) μ seed s → μ seed s < n →
      ∃ ts t e, ts.length ≤ μ seed s ∧ Rounds (Action.EndsWithin step n) seed s ts t e ∧
        e ≠ .exhausted ∧ (Action.loop seed step).evaluate n s = e) ∧
    ((∀ t, (Action.round step t).Steady) →
      (∀ e, e ≠ .exhausted → ((∃ n, (Action.loop seed step).evaluate n s = e) ↔
        ∃ ts t, Rounds (Action.Ends step) seed s ts t e)) ∧
      ∀ μ, Descends (Action.Ends step) μ seed s →
        ∃ ts t e, ts.length ≤ μ seed s ∧ Rounds (Action.Ends step) seed s ts t e ∧
          e ≠ .exhausted ∧ ∃ n, (Action.loop seed step).evaluate n s = e) := by
  refine ⟨fun n e => evaluate_loop_iff_within, fun n calls ts t e s' h => h.rounds,
    fun n μ h hn => ?_, fun hs => ⟨fun e => evaluate_loop_iff_ends hs, fun μ h => ?_⟩⟩
  · obtain ⟨ts, t, e, hlen, hne, hr⟩ := h.exists_rounds
    exact ⟨ts, t, e, hlen, hr, hne, (evaluate_loop_iff_within hne).2 ⟨ts, t, by omega, hr⟩⟩
  · obtain ⟨ts, t, e, hlen, hne, hr⟩ := h.exists_rounds
    exact ⟨ts, t, e, hlen, hr, hne, (evaluate_loop_iff_ends hs hne).2 ⟨ts, t, hr⟩⟩

/-- Lists its seeds while it counts down, and fails at zero. -/
def tally (t : ℕ) : Work (List ℕ × List Trace) (Action (List ℕ × List Trace) String (Either ℕ Unit)) :=
  do
  Work.update fun s => (s.1 ++ [t], s.2)
  return match t with
    | 0 => .failed "zero"
    | t + 1 => .pure (.left t)

theorem evaluate_loop_tally :
    (∀ t, (Action.round tally t).Steady) ∧ Records (Action.EndsWithin tally 3) Prod.fst ∧
    Descends (Action.EndsWithin tally 3) (fun t _ => t) 2 ([], []) ∧
    Descends (Action.Ends tally) (fun t _ => t) 2 ([], []) ∧
    (∃ n, (Action.loop 2 tally).evaluate n ([], []) = .value (.error "zero") ([2, 1, 0],
      [.message .trace "tail_rec_m loop failed" [("iterations", .number 3)]])) ∧
    (∃ ts t e, ts.length ≤ 2 ∧ Rounds (Action.EndsWithin tally 3) 2 ([], []) ts t e ∧
      (Action.loop 2 tally).evaluate 3 ([], []) = e ∧
        ∀ s', e.state? = some s' → s'.1 = [] ++ ts ++ [t]) ∧
    ∃ ts t e, ts.length ≤ 2 ∧ Rounds (Action.Ends tally) 2 ([], []) ts t e ∧ e ≠ .exhausted ∧
      ∃ n, (Action.loop 2 tally).evaluate n ([], []) = e := by
  have hround : ∀ t n s, Action.round tally t n s = match t with
      | 0 => .value (.error "zero") (s.1 ++ [0], s.2)
      | t + 1 => .value (.ok (.left t)) (s.1 ++ [t + 1], s.2) := by
    intro t n s
    cases t <;> rfl
  have hs : ∀ t, (Action.round tally t).Steady := fun t => .of_eq fun n s => hround t n s
  have hany : Action.Ends tally = Action.EndsWithin tally 3 := by
    funext t s e
    simp only [Action.Ends, Action.EndsWithin, hround, exists_const]
  have hcalls : Records (Action.EndsWithin tally 3) Prod.fst := by
    refine ⟨?_, fun _ _ => rfl⟩
    rintro t s _ s' rfl hs'
    rw [hround] at hs'
    cases t <;> simp [Ending.state?] at hs' <;> simp [← hs']
  have hμ : Descends (Action.EndsWithin tally 3) (fun t _ => t) 2 ([], []) := by
    refine ⟨fun ts t s₁ _ => ⟨_, rfl, ?_⟩, fun ts t s₁ t' s₂ _ hl => ?_⟩
    · cases t <;> simp [hround]
    · rw [Action.EndsWithin, hround] at hl
      cases t <;> simp_all
  obtain ⟨-, hlist, hwithin, hsteady⟩ := evaluate_loop_iff_rounds 2 tally ([], [])
  refine ⟨hs, hcalls, hμ, hany ▸ hμ, ((hsteady hs).1 _ (by simp)).2 ⟨[2, 1], 0, ?_⟩, ?_,
    (hsteady hs).2 _ (hany ▸ hμ)⟩
  · exact ⟨_, _, .left ⟨0, rfl⟩ (.left ⟨0, rfl⟩ .here), ⟨0, rfl⟩, .failed⟩
  · obtain ⟨ts, t, e, hlen, hr, -, he⟩ := hwithin 3 _ hμ (by omega)
    exact ⟨ts, t, e, hlen, hr, he, fun s' => hlist 3 Prod.fst ts t e s' hcalls hr⟩

end Deferral
