import Deferral.Host
import Deferral.Loop
import Mathlib.Logic.Relation
import Mathlib.Order.Filter.AtTopBot.Basic

/-!
# Work with a known value

`Gives R w a` says that the work `w` always gives `a`: under small budgets it may
have no answer, under large ones it has one, whatever the state, and it never
panics. The states before and after are related by `R`, a preorder: equality for
work without effects, or something wider.

* `Gives.bind`, `Gives.right_of_bind`: work and what follows on its value.
* `Gives.iterateExcept`: a loop whose rounds give left values up to a last one.
-/

namespace Deferral

open Filter

variable {σ τ ε α β : Type} {R : σ → σ → Prop}

/-- Only entries of the trace were added. -/
abbrev Noted [Tracing σ] : σ → σ → Prop :=
  Relation.ReflTransGen fun s s' => ∃ t, s' = Tracing.note t s

namespace Work

/-- The work gives `a`, if the budget is large enough, and changes the state along `R`. -/
structure Gives (R : σ → σ → Prop) (w : Work σ α) (a : α) : Prop where
  only : ∀ n s, w n s = .exhausted ∨ ∃ s', R s s' ∧ w n s = .value a s'
  ends : ∀ᶠ n in atTop, ∀ s, w n s ≠ .exhausted

/-- A large budget is enough from all states at once. -/
theorem Gives.eventually {w : Work σ α} {a : α} (hw : Gives R w a) :
    ∀ᶠ n in atTop, ∀ s, ∃ s', R s s' ∧ w n s = .value a s' := by
  filter_upwards [hw.ends] with n hn s
  exact (hw.only n s).resolve_left (hn s)

theorem gives_update {f : σ → σ} (h : ∀ s, R s (f s)) : Gives R (update f) () :=
  ⟨fun _ s => .inr ⟨f s, h s, rfl⟩, .of_forall fun _ _ => by simp [update]⟩

variable [IsPreorder σ R]

/-- A value is given at once, and the state stays, which a preorder allows. -/
theorem gives_pure (a : α) : Gives R (pure a) a :=
  ⟨fun _ s => .inr ⟨s, refl_of R s, rfl⟩, .of_forall fun _ _ => by simp⟩

/-- What follows on the value gives the value of the whole. -/
theorem Gives.bind {w : Work σ α} {a : α} {f : α → Work σ β} {b : β} (hw : Gives R w a)
    (hf : Gives R (f a) b) : Gives R (w >>= f) b := by
  constructor
  · intro n s
    rw [bind_run]
    -- no answer to the first part is none to the whole
    rcases hw.only n s with h | ⟨s₁, hs₁, h⟩
    · exact .inl (by rw [h])
    rw [h]
    rcases hf.only n s₁ with h | ⟨s₂, hs₂, h⟩
    · exact .inl h
    · exact .inr ⟨s₂, trans_of R hs₁ hs₂, h⟩
  · filter_upwards [hw.eventually, hf.ends] with n hn hn' s
    obtain ⟨s₁, -, h⟩ := hn s
    rw [bind_run, h]
    exact hn' s₁

/-- What is done to the state at the end leaves the value. -/
theorem Gives.always {w : Work σ α} {a : α} (hw : Gives R w a) {f : σ → σ} (hf : ∀ s, R s (f s)) :
    Gives R (w.always f) a := by
  constructor
  · intro n s
    rcases hw.only n s with h | ⟨s', hs', h⟩
    · exact .inl (by simp [Work.always, h])
    · exact .inr ⟨f s', trans_of R hs' (hf s'), by simp [Work.always, h]⟩
  · filter_upwards [hw.eventually] with n hn s
    obtain ⟨s', -, h⟩ := hn s
    simp [Work.always, h]

theorem Gives.map {w : Work σ α} {a : α} (hw : Gives R w a) (f : α → β) : Gives R (f <$> w) (f a) :=
  hw.bind (gives_pure _)

/-- A loop that has left values from `t` up to `t'`, and a right one there. The
number `k` of its rounds is the number of rounds that it needs to be allowed. -/
theorem Gives.iterateFrom {round : τ → Work σ (Either τ α)} {t t' : τ} {a : α}
    (hts : Relation.ReflTransGen (fun t t' => Gives R (round t) (.left t')) t t')
    (ha : Gives R (round t') (.right a)) :
    ∃ k, (∀ n more done s, Work.iterateFrom round n more done t s = .exhausted ∨
        ∃ s', R s s' ∧ Work.iterateFrom round n more done t s = .value (a, done + k) s') ∧
      ∀ᶠ n in atTop, ∀ more done s, k ≤ more →
        Work.iterateFrom round n more done t s ≠ .exhausted := by
  -- from the last round backwards: one more before it needs one more to be allowed
  induction hts using Relation.ReflTransGen.head_induction_on with
  | refl =>
    refine ⟨1, ?_, ?_⟩
    · rintro n (_ | more) done s
      · exact .inl rfl
      rcases ha.only n s with h | ⟨s', hs', h⟩
      · exact .inl (iterateFrom_exhausted h)
      · exact .inr ⟨s', hs', iterateFrom_right h⟩
    · filter_upwards [ha.eventually] with n hn
      rintro (_ | more) done s hk
      · omega
      obtain ⟨s', -, h⟩ := hn s
      rw [iterateFrom_right h]
      nofun
  | head ht _ ih =>
    obtain ⟨k, honly, hends⟩ := ih
    refine ⟨k + 1, ?_, ?_⟩
    · rintro n (_ | more) done s
      · exact .inl rfl
      rcases ht.only n s with h | ⟨s₁, hs₁, h⟩
      · exact .inl (iterateFrom_exhausted h)
      rw [iterateFrom_left h]
      rcases honly n more (done + 1) s₁ with h | ⟨s₂, hs₂, h⟩
      · exact .inl h
      · exact .inr ⟨s₂, trans_of R hs₁ hs₂, by rw [h, Nat.add_assoc, Nat.add_comm 1 k]⟩
    · filter_upwards [ht.eventually, hends] with n hn hn'
      rintro (_ | more) done s hk
      · omega
      obtain ⟨s₁, -, h⟩ := hn s
      rw [iterateFrom_left h]
      exact hn' more (done + 1) s₁ (by omega)

/-- The rounds of a loop are bounded by its budget, so a large one is enough for them too. -/
theorem Gives.iterate {round : τ → Work σ (Either τ α)} {t t' : τ} {a : α}
    (hts : Relation.ReflTransGen (fun t t' => Gives R (round t) (.left t')) t t')
    (ha : Gives R (round t') (.right a)) : ∃ k, Gives R (Work.iterate round t) (a, k) := by
  obtain ⟨k, honly, hends⟩ := Gives.iterateFrom hts ha
  refine ⟨k, ⟨fun n s => ?_, ?_⟩⟩
  · simpa [Work.iterate] using honly n n 0 s
  -- the budget has to be enough for each round, and for their number
  · filter_upwards [hends, eventually_ge_atTop k] with n hn hk s
    exact hn n 0 s hk

/-- A loop whose step may fail, with the outcome of its last round. -/
theorem Gives.iterateExcept {step : τ → Work σ (Except ε (Either τ α))} {t t' : τ}
    {r : Except ε α} (hts : Relation.ReflTransGen (fun t t' => Gives R (step t) (.ok (.left t'))) t t')
    (hr : (∃ a, Gives R (step t') (.ok (.right a)) ∧ r = .ok a) ∨
      ∃ e, Gives R (step t') (.error e) ∧ r = .error e) :
    ∃ k, Gives R (Work.iterateExcept step t) (r, k) := by
  have hleft : ∀ t t', Gives R (step t) (.ok (.left t')) → Gives R (exceptRound step t) (.left t') :=
    fun _ _ h => h.bind (gives_pure _)
  refine Gives.iterate (Relation.ReflTransGen.mono hleft _ _ hts) ?_
  rcases hr with ⟨a, h, rfl⟩ | ⟨e, h, rfl⟩
  · exact h.bind (gives_pure _)
  · exact h.bind (gives_pure _)

section Ends

variable {w : Work σ α} {f : α → Work σ β} {n : ℕ} {s : σ}

/-- Where a sequence ends, so does its first part. -/
theorem left_of_bind (h : (w >>= f) n s ≠ .exhausted) : w n s ≠ .exhausted := by
  intro he
  rw [bind_run, he] at h
  exact h rfl

theorem Gives.eq_of_ne {a : α} (hw : Gives Eq w a) (h : w n s ≠ .exhausted) :
    w n s = .value a s := by
  rcases hw.only n s with he | ⟨_, rfl, he⟩
  · exact absurd he h
  · exact he

/-- Where a sequence ends, so does its second part, on the value of the first. -/
theorem Gives.right_of_bind {a : α} (hw : Gives Eq w a) (h : (w >>= f) n s ≠ .exhausted) :
    f a n s ≠ .exhausted := by
  rwa [bind_run, hw.eq_of_ne (left_of_bind h)] at h

end Ends

theorem gives_emit [Tracing σ] (t : Trace) : Gives Noted (emit t : Work σ Unit) () :=
  gives_update fun _ => .single ⟨t, rfl⟩

end Work
end Deferral
