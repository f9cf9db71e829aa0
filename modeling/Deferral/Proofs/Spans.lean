import Deferral.Action.Run
import Deferral.Proofs.Rounds

/-!
# Spans of runs

A run evaluates its action between two sets of notes: its span is made and entered
before (`intoSpan`), and noted to be left afterwards, after the note of a failure if
there was one (`Ending.outOfSpan`). Nothing else sets a run apart from an evaluation.

* `Action.run_eq_outOfSpan`: **a run is an evaluation inside a span.**
-/

namespace Deferral

variable {σ ρ ε α : Type} [Tracing σ]

/-- The state in which a run evaluates its action. -/
def intoSpan (s : σ) : σ := Tracing.note .enter (Tracing.note (.span .trace "io.run") s)

/-- How a run ends whose action has ended so. -/
def Ending.outOfSpan : Ending σ (Except ε α) → Ending σ (Except ε α)
  | .value (.ok x) s => .value (.ok x) (Tracing.note .exit s)
  | .value (.error e) s => .value (.error e)
      (Tracing.note .exit (Tracing.note (.message .debug "effect evaluation failed" []) s))
  | .panic p s => .panic p (Tracing.note .exit s)
  | .exhausted => .exhausted

/-- **A run is an evaluation inside a span.** -/
theorem Action.run_eq_outOfSpan (a : Action σ ε α) (n : ℕ) (s : σ) :
    a.run n s = (a.evaluate n (intoSpan s)).outOfSpan := by
  change a.evaluateNoted.always (Tracing.note .exit) n (intoSpan s) = _
  rw [Work.always, evaluateNoted, Work.bind_run]
  rcases a.evaluate n (intoSpan s) with ⟨e | x, s'⟩ | ⟨p, s'⟩ | _ <;> rfl

section View

variable {view : σ → ρ} (hview : ∀ t s, view (Tracing.note t s) = view s)

include hview

/-- What notes do not change is the same inside the span. -/
theorem view_intoSpan (s : σ) : view (intoSpan s) = view s := by rw [intoSpan, hview, hview]

/-- What notes do not change stays as it is when the span is left. -/
theorem Ending.map_state?_outOfSpan (e : Ending σ (Except ε α)) :
    e.outOfSpan.state?.map view = e.state?.map view := by
  rcases e with ⟨x | x, s⟩ | ⟨p, s⟩ | _
  · exact congrArg some ((hview _ _).trans (hview _ s))
  · exact congrArg some (hview _ s)
  · exact congrArg some (hview _ s)
  · rfl

end View

end Deferral
