import Deferral.Loop
import Mathlib.Order.Basic

/-!
# Work that is only a matter of time

The budget of a piece of work is the time that the host waits for it. Work is
**steady** if waiting longer never changes an answer (`Work.Steady`): it may give
no answer under a small budget, but under all larger ones the answer is the same.
The host's own code is like this, since it cannot see how long it is waited for.

* `Steady.bind`, `Steady.caught`: sequences and caught panics keep work steady.
* `steady_iterate`: a loop of steady steps is steady, whatever number of them the
  budgets allow.
-/

namespace Deferral

variable {σ τ α β : Type}

namespace Work

/-- Waiting longer changes no answer. -/
def Steady (w : Work σ α) : Prop :=
  ∀ ⦃m n : ℕ⦄ ⦃s : σ⦄, m ≤ n → w m s ≠ .exhausted → w n s = w m s

/-- Work that does not look at the budget. -/
theorem Steady.of_eq {w : Work σ α} {f : σ → Ending σ α} (h : ∀ n s, w n s = f s) : w.Steady :=
  fun m n s _ _ => (h n s).trans (h m s).symm

theorem steady_pure (a : α) : (pure a : Work σ α).Steady := .of_eq fun _ _ => rfl

theorem steady_panic (p : Payload) : (panic p : Work σ α).Steady := .of_eq fun _ _ => rfl

theorem steady_update (f : σ → σ) : (update f).Steady := .of_eq fun _ _ => rfl

/-- Both parts have answered under the smaller budget. -/
theorem Steady.bind {w : Work σ α} {f : α → Work σ β} (hw : w.Steady) (hf : ∀ a, (f a).Steady) :
    (w >>= f).Steady := by
  intro m n s hmn he
  rw [bind_run] at he
  rw [bind_run, bind_run]
  cases hws : w m s with
  | value a s' =>
    rw [hw hmn (by simp [hws]), hws]
    exact hf a hmn (by simpa [hws] using he)
  | panic p s' => rw [hw hmn (by simp [hws]), hws]
  | exhausted => simp [hws] at he

theorem Steady.caught {w : Work σ α} (hw : w.Steady) : w.caught.Steady := by
  intro m n s hmn he
  have hm : w m s ≠ .exhausted := by
    intro h; simp [Work.caught, h] at he
  simp only [Work.caught, hw hmn hm]

/-- A loop of steady steps that ends under some budget and number of steps ends
in the same way under larger ones. -/
theorem iterateFrom_eq_of_le {step : τ → Work σ (Either τ α)} (h : ∀ t, (step t).Steady) {m n : ℕ}
    (hmn : m ≤ n) {k : ℕ} : ∀ {k' : ℕ}, k ≤ k' → ∀ (done : ℕ) (t : τ) (s : σ),
      iterateFrom step m k done t s ≠ .exhausted →
        iterateFrom step n k' done t s = iterateFrom step m k done t s := by
  -- on the number of rounds allowed under the smaller budget
  induction k with
  | zero => intro k' _ done t s he; simp [iterateFrom] at he
  | succ k ih =>
    intro k' hk done t s he
    obtain ⟨k', rfl⟩ : ∃ k₀, k' = k₀ + 1 := ⟨k' - 1, by omega⟩
    simp only [iterateFrom] at he ⊢
    cases hst : step t m s with
    | value e s' =>
      rw [h t hmn (by simp [hst]), hst]
      cases e with
      | left t' => exact ih (by omega) (done + 1) t' s' (by simpa [hst] using he)
      | right a => rfl
    | panic p s' => rw [h t hmn (by simp [hst]), hst]
    | exhausted => simp [hst] at he

theorem steady_iterate {step : τ → Work σ (Either τ α)} (h : ∀ t, (step t).Steady) (seed : τ) :
    (iterate step seed).Steady :=
  fun _ _ s hmn he => iterateFrom_eq_of_le h hmn hmn 0 seed s he

end Work
end Deferral
