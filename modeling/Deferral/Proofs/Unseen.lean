import Deferral.Proofs.Containment
import Deferral.Proofs.Spans

/-!
# Work that does not see the trace

What a host makes of notes is for others to look at: `view` is the rest of its state, and notes
do not change it. Work is blind (`Work.Blind`) if from states that look the same it ends in the
same way, in states that look the same. It may take notes, and leave it to the host what becomes
of them, but what it does depends on nothing that they change.

* `Blind.bind`, `blind_iterate`, `Blind.caught`: blind work is made of blind parts.
* `Same.outOfSpan`, `Blind.run`: a run looks like the evaluation inside it.
-/

namespace Deferral

variable {σ ρ ε τ α β : Type} {view : σ → ρ}

/-- Two endings with the same value or the same panic, in states that look the same. -/
inductive Ending.Same (view : σ → ρ) : Ending σ α → Ending σ α → Prop where
  | value (a : α) {s s' : σ} (h : view s = view s') : Same view (.value a s) (.value a s')
  | panic (p : Payload) {s s' : σ} (h : view s = view s') : Same view (.panic p s) (.panic p s')
  | exhausted : Same view .exhausted .exhausted

theorem Ending.Same.symm {e e' : Ending σ α} (h : e.Same view e') : e'.Same view e := by
  cases h with
  | value a h => exact .value a h.symm
  | panic p h => exact .panic p h.symm
  | exhausted => exact .exhausted

/-- The values are changed by one function. -/
theorem Ending.Same.map {w w' : Work σ α} {n : ℕ} {s s' : σ} (h : (w n s).Same view (w' n s'))
    (f : α → β) : ((f <$> w) n s).Same view ((f <$> w') n s') := by
  rw [map_eq_pure_bind, map_eq_pure_bind, Work.bind_run, Work.bind_run]
  generalize w n s = x, w' n s' = y at h
  cases h with
  | value a h => exact .value (f a) h
  | panic p h => exact .panic p h
  | exhausted => exact .exhausted

namespace Work

/-- From states that look the same, the work ends in the same way. -/
def Blind (view : σ → ρ) (w : Work σ α) : Prop :=
  ∀ n s s', view s = view s' → (w n s).Same view (w n s')

theorem blind_pure (a : α) : (pure a : Work σ α).Blind view := fun _ _ _ h => .value a h

theorem blind_panic (p : Payload) : (panic p : Work σ α).Blind view := fun _ _ _ h => .panic p h

theorem blind_giveUp : (giveUp : Work σ α).Blind view := fun _ _ _ _ => .exhausted

/-- The second part starts from states that look the same, with one value. -/
theorem Blind.bind {w : Work σ α} {f : α → Work σ β} (hw : w.Blind view)
    (hf : ∀ a, (f a).Blind view) : (w >>= f).Blind view := by
  intro n s s' h
  have hs := hw n s s' h
  rw [bind_run, bind_run]
  generalize w n s = x, w n s' = y at hs
  cases hs with
  | value a h => exact hf a n _ _ h
  | panic p h => exact .panic p h
  | exhausted => exact .exhausted

/-- An update that sees no more than the view. -/
theorem blind_update {f : σ → σ} (hf : ∀ s s', view s = view s' → view (f s) = view (f s')) :
    (update f).Blind view := fun _ s s' h => .value () (hf s s' h)

/-- A panic that is turned into a value. -/
theorem Blind.caught {w : Work σ α} (hw : w.Blind view) : w.caught.Blind view := by
  intro n s s' h
  have hs := hw n s s' h
  rw [Work.caught, Work.caught]
  generalize w n s = x, w n s' = y at hs
  cases hs with
  | value a h => exact .value _ h
  | panic p h => exact .value _ h
  | exhausted => exact .exhausted

/-- A loop of blind rounds. -/
theorem blind_iterate {round : τ → Work σ (Either τ α)} (h : ∀ t, (round t).Blind view) (seed : τ) :
    (iterate round seed).Blind view := by
  intro n s s' hs
  -- on the rounds that are allowed, which are as many from both states
  have key : ∀ more done t s s', view s = view s' →
      (iterateFrom round n more done t s).Same view (iterateFrom round n more done t s') := by
    intro more
    induction more with
    | zero => exact fun done t s s' _ => .exhausted
    | succ more ih =>
      intro done t s s' hs
      have hround := h t n s s' hs
      rw [iterateFrom, iterateFrom]
      generalize round t n s = x, round t n s' = y at hround
      cases hround with
      | value r hr =>
        cases r with
        | left t' => exact ih (done + 1) t' _ _ hr
        | right a => exact .value _ hr
      | panic p hp => exact .panic p hp
      | exhausted => exact .exhausted
  exact key n 0 seed s s' hs

end Work

section Notes

variable [Tracing σ] (hview : ∀ t s, view (Tracing.note t s) = view s)

include hview

theorem blind_emit (t : Trace) : (emit t : Work σ Unit).Blind view :=
  Work.blind_update fun s s' h => by rw [hview, hview, h]

/-- The note of a contained panic is not seen. -/
theorem Action.blind_containPanic [OfFault ε] {a : Action σ ε α} (ha : a.evaluate.Blind view) :
    a.containPanic.evaluate.Blind view := by
  refine ha.caught.bind fun r => ?_
  cases r with
  | ok x => exact Work.blind_pure _
  | error p => exact (blind_emit hview _).bind fun _ => Work.blind_pure _

/-- To leave a span changes nothing that can be seen. -/
theorem Ending.Same.outOfSpan {e e' : Ending σ (Except ε α)} (h : e.Same view e') :
    e.outOfSpan.Same view e' := by
  cases h with
  | value r h =>
    cases r with
    | ok x => exact .value _ ((hview _ _).trans h)
    | error x => exact .value _ (((hview _ _).trans (hview _ _)).trans h)
  | panic p h => exact .panic p ((hview _ _).trans h)
  | exhausted => exact .exhausted

/-- **A run looks like the evaluation inside it**, if that does not see the span. -/
theorem Action.run_same {a : Action σ ε α} (ha : a.evaluate.Blind view) (n : ℕ) {s s' : σ}
    (h : view s = view s') : (a.run n s).Same view (a.evaluate n s') := by
  rw [run_eq_outOfSpan]
  exact (ha n _ _ ((view_intoSpan hview s).trans h)).outOfSpan hview

/-- A run does not see the trace either. -/
theorem Action.blind_run {a : Action σ ε α} (ha : a.evaluate.Blind view) : a.run.Blind view := by
  intro n s s' h
  rw [a.run_eq_outOfSpan n s']
  -- both sides look like the evaluation from `intoSpan s'`, once the span is left
  have hinto : view s = view (intoSpan s') := h.trans (view_intoSpan hview s').symm
  exact ((a.run_same hview ha n hinto).symm.outOfSpan hview).symm

end Notes

end Deferral
