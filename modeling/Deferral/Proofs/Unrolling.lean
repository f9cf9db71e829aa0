import Deferral.Carrier.Instances
import Deferral.Proofs.Rounds

/-!
# Loops written out

A loop over a carrier is its first rounds written out, with the loop itself for the
seed that is left after them: `unrolled step k` calls the step and binds what comes
next to its outcome, `k` times. The loops of optional values, of results and of
actions are three, and this holds of each.

* `Work.rounds_run`: some rounds one after the other and then the loop are the loop
  with as many rounds more to go.
* `unrolled_option`, `unrolled_except`, `unrolled_action`: over each carrier, `bind`
  after a step is one round.
* `loop_unrolls`: **a loop does what it does written out.** Actions are compared when
  they are run, but for the note that a loop takes of its own rounds (`UpToNote`).
-/

namespace Deferral

variable {σ ε τ α β : Type}

namespace Work

/-- The first `k` rounds of a loop, one after the other, and then what `last` does with
the seed that is left. -/
def rounds (round : τ → Work σ (Either τ α)) (last : τ → Work σ α) : ℕ → τ → Work σ α
  | 0, t => last t
  | k + 1, t => do
    match ← round t with
    | .left t' => rounds round last k t'
    | .right a => return a

/-- What comes of a loop whose first `k` rounds are written out: if it took more of
them, `finish` is told of the others. -/
def conclude (finish : α → ℕ → Work σ α) (k n : ℕ) : Ending σ (α × ℕ) → Ending σ α
  | .value (a, done) s => if done ≤ k then .value a s else finish a (done - k) n s
  | .panic p s => .panic p s
  | .exhausted => .exhausted

section Rounds

variable {round : τ → Work σ (Either τ α)} {n more done : ℕ} {t : τ} {s : σ}

/-- More rounds to go do not change how a loop ends. -/
theorem iterateFrom_eq_of_more {more' : ℕ} (hmore : more ≤ more')
    (h : iterateFrom round n more done t s ≠ .exhausted) :
    iterateFrom round n more' done t s = iterateFrom round n more done t s := by
  -- on the smaller number; both go through the same rounds
  induction more generalizing more' done t s with
  | zero => exact absurd rfl h
  | succ more ih =>
    obtain ⟨more', rfl⟩ : ∃ k, more' = k + 1 := ⟨more' - 1, by omega⟩
    simp only [iterateFrom] at h ⊢
    cases hr : round t n s with
    | value e s' =>
      cases e with
      | left t' => exact ih (by omega) (by simpa [hr] using h)
      | right a => rfl
    | panic p s' => rfl
    | exhausted => rfl

/-- A loop counts on from the rounds that were done before. -/
theorem iterateFrom_count (done : ℕ) : iterateFrom round n more done t s =
    match iterateFrom round n more 0 t s with
    | .value (a, k) s' => .value (a, k + done) s'
    | .panic p s' => .panic p s'
    | .exhausted => .exhausted := by
  induction more generalizing done t s with
  | zero => rfl
  | succ more ih =>
    simp only [iterateFrom]
    cases round t n s with
    | value e s' =>
      cases e with
      | left t' =>
        simp only [Nat.zero_add]
        rw [ih, ih 1]
        cases iterateFrom round n more 0 t' s' with
        | value r s'' => simp only [Nat.add_assoc, Nat.add_comm 1 done]
        | panic p s'' => rfl
        | exhausted => rfl
      | right a => simp only [Nat.zero_add, Nat.add_comm 1 done]
    | panic p s' => rfl
    | exhausted => rfl

/-- A loop that ends has taken a round. -/
theorem lt_of_iterateFrom {a : α} {k : ℕ} {s' : σ}
    (h : iterateFrom round n more done t s = .value (a, k) s') : done < k := by
  induction more generalizing done t s with
  | zero => cases h
  | succ more ih =>
    simp only [iterateFrom] at h
    cases hr : round t n s with
    | value e s₁ =>
      rw [hr] at h
      cases e with
      | left t' => exact lt_trans (Nat.lt_succ_self done) (ih h)
      | right b =>
        cases h
        exact Nat.lt_succ_self done
    | panic p s₁ => simp [hr] at h
    | exhausted => simp [hr] at h

variable {finish : α → ℕ → Work σ α}

/-- With no rounds written out the loop concludes by itself. -/
theorem iterate_bind_run (t : τ) : (iterate round t >>= fun r => finish r.1 r.2) n s =
    conclude finish 0 n (iterateFrom round n n 0 t s) := by
  rw [bind_run, iterate]
  cases h : iterateFrom round n n 0 t s with
  | value r s' => rw [conclude, if_neg (by have := lt_of_iterateFrom h; omega)]; rfl
  | panic p s' => rfl
  | exhausted => rfl

/-- Some rounds and then the loop are the loop with as many rounds more to go. -/
theorem rounds_run (k : ℕ) : rounds round (fun t => iterate round t >>= fun r => finish r.1 r.2) k t n s =
    conclude finish k n (iterateFrom round n (n + k) 0 t s) := by
  -- on the rounds that are written out, for any seed and any state
  induction k generalizing t s with
  | zero => exact iterate_bind_run t
  | succ k ih =>
    rw [rounds, bind_run, ← Nat.add_assoc, iterateFrom]
    cases round t n s with
    | value e s' =>
      cases e with
      | left t' =>
        simp only [ih, Nat.zero_add]
        -- the rounds after this one are counted from one on
        rw [iterateFrom_count 1]
        cases iterateFrom round n (n + k) 0 t' s' with
        | value r s'' => simp only [conclude, Nat.add_le_add_iff_right, Nat.add_sub_add_right]
        | panic p s'' => rfl
        | exhausted => rfl
      | right a => simp [conclude]
    | panic p s' => rfl
    | exhausted => rfl

end Rounds

end Work

section Carriers

variable {m : Type → Type} {F : Type → Type} [Chainable σ m F] [MonadLiftT m (Work σ)]

/-- A loop with its first `k` rounds written out: the step, and then, bound to what it
gives, the rest from the next seed. After these rounds the loop itself goes on. -/
def unrolled (step : τ → Work σ (F (Either τ β))) : ℕ → τ → Work σ (F β)
  | 0, t => liftM (Chainable.loop (σ := σ) t step : m (F β))
  | k + 1, t => do
    let x ← step t
    liftM (Chainable.bind (σ := σ) x fun
      | .left t' => unrolled step k t'
      | .right b => return Zippable.ofValue σ b : m (F β))

end Carriers

section Rounds

/-- Of optional values, what is written out are rounds. -/
theorem unrolled_option (step : τ → Work σ (Option (Either τ β))) (k : ℕ) (t : τ) :
    unrolled step k t = Work.rounds (optionRound step)
      (fun t => Work.iterate (optionRound step) t >>= fun r => return r.1) k t := by
  induction k generalizing t with
  | zero => exact map_eq_pure_bind _ _
  | succ k ih =>
    rw [Work.rounds, optionRound, bind_assoc, unrolled]
    refine bind_congr fun x => ?_
    rcases x with _ | (t' | b)
    · rfl
    · exact ih t'
    · rfl

/-- Of results, what is written out are rounds. -/
theorem unrolled_except (step : τ → Work σ (Except ε (Either τ β))) (k : ℕ) (t : τ) :
    unrolled step k t = Work.rounds (Work.exceptRound step)
      (fun t => Work.iterateExcept step t >>= fun r => return r.1) k t := by
  induction k generalizing t with
  | zero => exact map_eq_pure_bind _ _
  | succ k ih =>
    rw [Work.rounds, Work.exceptRound, bind_assoc, unrolled]
    refine bind_congr fun x => ?_
    rcases x with e | (t' | b)
    · rfl
    · exact ih t'
    · rfl

/-- A step's action with what comes next bound to it: when it is run, what comes next is
run after it. -/
theorem evaluate_bind_sides [Tracing σ] (a : Action σ ε (Either τ β))
    (next : τ → Work σ (Action σ ε β)) :
    (liftM (Chainable.bind (σ := σ) a fun
      | .left t => next t
      | .right b => return Zippable.ofValue σ b) : Work σ _) >>= Action.evaluate =
    a.evaluate >>= fun
      | .ok (.left t) => next t >>= Action.evaluate
      | .ok (.right b) => return .ok b
      | .error e => return .error e := by
  refine (a.evaluate_bind _).trans (bind_congr fun r => ?_)
  rcases r with e | (t | b) <;> rfl

/-- Of actions, what is written out does its rounds when it is run. -/
theorem unrolled_action [Tracing σ] (step : τ → Work σ (Action σ ε (Either τ β))) (k : ℕ) (t : τ) :
    unrolled step k t >>= Action.evaluate = Work.rounds (Work.exceptRound (Action.round step))
      (fun t => (Action.loop t step).evaluate) k t := by
  induction k generalizing t with
  | zero => exact pure_bind _ _
  | succ k ih =>
    rw [Work.rounds, Work.exceptRound, Action.round, bind_assoc, bind_assoc, unrolled, bind_assoc]
    refine bind_congr fun a => (evaluate_bind_sides a _).trans (bind_congr fun r => ?_)
    rcases r with e | (t' | b)
    · rfl
    · exact ih t'
    · rfl

end Rounds

/-- How a loop of actions ends beside how it ends with `k` rounds written out. The
outcome and the state are the same, but for the note of the loop: the loop that is left
after `k` rounds counts only its own, and there may be none left. -/
inductive UpToNote [Tracing σ] (k : ℕ) : Ending σ (Except ε β) → Ending σ (Except ε β) → Prop where
  | within {r : Except ε β} {done : ℕ} {s : σ} (h : done ≤ k) :
      UpToNote k (.value r (Tracing.note (Action.loopEnded r done) s)) (.value r s)
  | beyond {r : Except ε β} {done : ℕ} {s : σ} (h : k < done) :
      UpToNote k (.value r (Tracing.note (Action.loopEnded r done) s))
        (.value r (Tracing.note (Action.loopEnded r (done - k)) s))
  | panic {p : Payload} {s : σ} : UpToNote k (.panic p s) (.panic p s)

/-- `w'` is the loop `w` with `k` rounds written out. It answers where the loop does, in
the same way up to `R`, and if waiting longer changes no answer of the rounds, nowhere
else; but it may take `k` rounds more than the budget allows a loop. -/
structure Unrolls (R : Ending σ α → Ending σ α → Prop) (steady : Prop) (k : ℕ) (w w' : Work σ α) :
    Prop where
  answer : ∀ n s, w n s ≠ .exhausted → R (w n s) (w' n s)
  only : steady → ∀ n s, w' n s ≠ .exhausted → R (w (n + k) s) (w' n s)

namespace Work

variable {round : τ → Work σ (Either τ α)} {finish : α → ℕ → Work σ α} {k n : ℕ}

theorem conclude_ne_exhausted {e : Ending σ (α × ℕ)} (h : conclude finish k n e ≠ .exhausted) :
    e ≠ .exhausted := by
  rintro rfl
  exact h rfl

/-- A loop and the same loop written out conclude alike, if all that is left of a loop
concludes alike. -/
theorem unrolls {R : Ending σ α → Ending σ α → Prop} {steady : Prop} (t : τ)
    (hs : steady → ∀ t, (round t).Steady)
    (hR : ∀ n n' e, e ≠ .exhausted → (∀ a done s, e = .value (a, done) s → 0 < done) →
      R (conclude finish 0 n e) (conclude finish k n' e)) :
    Unrolls R steady k (iterate round t >>= fun r => finish r.1 r.2)
      (rounds round (fun t => iterate round t >>= fun r => finish r.1 r.2) k t) := by
  constructor
  · intro n s h
    rw [iterate_bind_run] at h ⊢
    have he := conclude_ne_exhausted h
    rw [rounds_run, iterateFrom_eq_of_more (Nat.le_add_right n k) he]
    exact hR n n _ he fun a done s' => lt_of_iterateFrom
  · intro hsteady n s h
    rw [rounds_run] at h ⊢
    have he := conclude_ne_exhausted h
    -- the larger budget is enough for the same rounds
    rw [iterate_bind_run, iterateFrom_eq_of_le (hs hsteady) (Nat.le_add_right n k) le_rfl 0 t s he]
    exact hR (n + k) n _ he fun a done s' => lt_of_iterateFrom

/-- Without a note, all that is left concludes in the same way. -/
theorem conclude_pure {k k' n n' : ℕ} (e : Ending σ (α × ℕ)) :
    conclude (fun a _ => pure a) k n e = conclude (fun a _ => pure a) k' n' e := by
  cases e with
  | value r s => simp [conclude]
  | panic p s => rfl
  | exhausted => rfl

end Work

/-- What is left after `k` rounds of a loop of actions takes another note, or none. -/
theorem conclude_upToNote [Tracing σ] {k n n' : ℕ} {e : Ending σ (Except ε β × ℕ)}
    (he : e ≠ .exhausted) (hpos : ∀ r done s, e = .value (r, done) s → 0 < done) :
    UpToNote k
      (Work.conclude (fun r done => emit (Action.loopEnded r done) >>= fun _ => return r) 0 n e)
      (Work.conclude (fun r done => emit (Action.loopEnded r done) >>= fun _ => return r) k n' e) := by
  cases e with
  | value r s =>
    obtain ⟨r, done⟩ := r
    have hdone : ¬done ≤ 0 := by
      have := hpos r done s rfl
      omega
    rw [Work.conclude, if_neg hdone, Work.conclude]
    -- the loop that is left was not reached, or has counted the other rounds
    by_cases hk : done ≤ k
    · rw [if_pos hk]
      exact .within hk
    · rw [if_neg hk]
      exact .beyond (by omega)
  | panic p s => exact .panic
  | exhausted => exact absurd rfl he

/-- **Loops written out.** A loop over optional values, results or actions does the same
as its step with the rest bound to it, and this any number of times: it ends where that
ends, with the same outcome and the same state, so with the same effects in the same
order, also where a step fails or panics. For actions this is what they do when they are
run, leaving aside the note that a loop takes of the number of its rounds. -/
theorem loop_unrolls [Tracing σ] (k : ℕ) (seed : τ) :
    (∀ step : τ → Work σ (Option (Either τ β)),
      Unrolls Eq (∀ t, (step t).Steady) k (Chainable.loop seed step) (unrolled step k seed)) ∧
    (∀ step : τ → Work σ (Except ε (Either τ β)),
      Unrolls Eq (∀ t, (step t).Steady) k (Chainable.loop seed step) (unrolled step k seed)) ∧
    ∀ step : τ → Work σ (Action σ ε (Either τ β)),
      Unrolls (UpToNote k) (∀ t, (Action.round step t).Steady) k
        (Chainable.loop (σ := σ) seed step : Action σ ε β).evaluate
        (unrolled step k seed >>= Action.evaluate) := by
  refine ⟨fun step => ?_, fun step => ?_, fun step => ?_⟩
  · rw [unrolled_option, show (Chainable.loop seed step : Work σ (Option β)) = _ from
      map_eq_pure_bind _ _]
    refine Work.unrolls seed (fun hs t => (hs t).bind fun x => ?_) fun n n' e _ _ =>
      Work.conclude_pure e
    rcases x with _ | (t' | b) <;> exact Work.steady_pure _
  · rw [unrolled_except, show (Chainable.loop seed step : Work σ (Except ε β)) = _ from
      map_eq_pure_bind _ _]
    refine Work.unrolls seed (fun hs t => (hs t).bind fun x => ?_) fun n n' e _ _ =>
      Work.conclude_pure e
    rcases x with e | (t' | b) <;> exact Work.steady_pure _
  · rw [unrolled_action]
    refine Work.unrolls seed (fun hs t => (hs t).bind fun x => ?_) fun n n' e he hpos =>
      conclude_upToNote he hpos
    rcases x with e | (t' | b) <;> exact Work.steady_pure _

theorem loop_unrolls_tally :
    (∀ t, (Action.round tally t).Steady) ∧
    (unrolled tally 2 3 >>= Action.evaluate) 2 ([], []) ≠ .exhausted ∧
    UpToNote 2 ((Action.loop 3 tally).evaluate 4 ([], []))
      ((unrolled tally 2 3 >>= Action.evaluate) 2 ([], [])) := by
  have hs : ∀ t, (Action.round tally t).Steady := fun t =>
    .of_eq (f := Action.round tally t 0) fun n s => by cases t <;> rfl
  have hne : (unrolled tally 2 3 >>= Action.evaluate) 2 ([], []) ≠ .exhausted := by
    intro h
    cases h
  exact ⟨hs, hne, ((loop_unrolls 2 3).2.2 tally).only hs 2 ([], []) hne⟩

end Deferral
