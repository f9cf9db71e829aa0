import Deferral.Action.Lemmas
import Deferral.Proofs.Recipe

/-!
# Actions do what their recipes say

`Recipe.follows`: evaluating the action that a recipe builds follows the course of
the recipe. The induction is on the recipe and on the host code in it at once: a
function that makes an action hands over to the recipe of what it has made, so the
actions that come up while others are evaluated are covered too. Each case unfolds
the action to a sequence of work by the lemma `evaluate_` of its combinator, and
follows the course step by step.

`evaluate_assemble_iff` reads this off for outcomes and for the absence of an end.
-/

namespace Deferral

variable {σ : Type}

namespace Follows

variable {ε α β : Type}

/-- Host code that decides on an action, and the action. -/
theorem make {ι : Type} {w : Work σ ι} {c : Course σ ι} {a : ι → Action σ ε α}
    {g : ι → Course σ (Except ε α)} (hw : Follows w c) (ha : ∀ i, Follows (a i).evaluate (g i)) :
    Follows ((do return a (← w)) >>= Action.evaluate) (do g (← c)) := by
  rw [bind_assoc]
  simp only [pure_bind]
  exact hw.bind ha

/-- A round whose step may fail follows the round of the course. -/
theorem exceptRound {τ : Type} {step : τ → Work σ (Except ε (Either τ α))} {t : τ}
    {c : Course σ (Except ε (Either τ α))} (h : Follows (step t) c) :
    Follows (Work.exceptRound step t) (Course.exceptRound c) := by
  refine h.bind ?_
  rintro (e | (t' | a))
  · exact .pure _
  · exact .pure _
  · exact .pure _

variable [Tracing σ]

/-- To leave a span in every case is to leave it after an outcome and after a panic. -/
theorem run {a : Action σ ε α} {c : Course σ (Except ε α)} (h : Follows a.evaluate c) :
    Follows a.run (do
      Course.note (.span .trace "io.run")
      Course.note .enter
      match ← c.caught with
      | .ok outcome =>
        Course.noteFailure outcome
        Course.note .exit
        return outcome
      | .error p =>
        Course.note .exit
        throw p) := by
  refine (Follows.note _).bind fun _ => (Follows.note _).bind fun _ => ?_
  -- the span is left at the end of each of the three ways out
  have hleave : a.evaluateNoted.always (Tracing.note .exit) = (a.evaluate.caught >>= fun
      | .ok (.ok x) => do emit .exit; return .ok x
      | .ok (.error e) => do
        emit (.message .debug "effect evaluation failed" [])
        emit .exit
        return .error e
      | .error p => do emit .exit; Work.panic p) := by
    funext n s
    simp only [Work.always, Action.evaluateNoted, Work.bind_run, Work.caught]
    cases a.evaluate n s with
    | value r s' => cases r <;> rfl
    | panic p s' => rfl
    | exhausted => rfl
  rw [hleave]
  refine h.caught.bind ?_
  rintro (p | (e | x))
  · exact (Follows.note _).bind fun _ => .throw p
  · exact (Follows.note _).bind fun _ => (Follows.note _).bind fun _ => .pure _
  · simp only [Course.noteFailure, pure_bind]
    exact (Follows.note _).bind fun _ => .pure _

end Follows

variable [Tracing σ]

mutual

/-- **The action of a recipe follows its course.** -/
theorem Recipe.follows {ε α : Type} : (d : Recipe σ ε α) → Follows d.assemble.evaluate d.course
  | .pure a => .pure (Except.ok a)
  | .failed e => .pure (Except.error e)
  | .ofExcept r => by
    rw [Recipe.assemble, Action.evaluate_ofExcept, Recipe.course]
    exact .pure r
  | .ofWork c => c.follows.map Except.ok
  | .ofFallible c => c.follows
  | .defer c k => by
    rw [Recipe.assemble, Action.evaluate_defer, Recipe.course]
    exact c.follows.make fun i => (k i).follows
  | .map d f => by
    rw [Recipe.assemble, Action.evaluate_map, Recipe.course]
    refine d.follows.bind ?_
    rintro (e | a)
    · exact .pure _
    · exact (f a).follows.map _
  -- the continuation makes a recipe, which is part of this one: the recursion is on it
  | .bind d c k => by
    rw [Recipe.assemble, Action.evaluate_bind, Recipe.course]
    refine d.follows.bind ?_
    rintro (e | a)
    · exact .pure _
    · exact (c a).follows.make fun i => (k i).follows
  | .andThen d c k => by
    rw [Recipe.assemble, Action.evaluate_andThen, Action.evaluate_bind, Recipe.course]
    refine d.follows.bind ?_
    rintro (e | a)
    · exact .pure _
    · exact (c a).follows.make fun i => (k i).follows
  | .followedBy d d' => by
    rw [Recipe.assemble, Action.evaluate_followedBy, Recipe.course]
    refine d.follows.bind ?_
    rintro (e | a)
    · exact .pure _
    · exact d'.follows
  | .zipWith d d' f => by
    rw [Recipe.assemble, Action.evaluate_zipWith, Recipe.course]
    refine d.follows.bind ?_
    rintro (e | a)
    -- a failure on the left: the right side is not evaluated
    · exact .pure _
    refine d'.follows.bind ?_
    rintro (e | b)
    · exact .pure _
    · exact (f a b).follows.map _
  | .zip d d' => by
    rw [Recipe.assemble, Action.zip, Action.evaluate_zipWith, Recipe.course]
    refine d.follows.bind ?_
    rintro (e | a)
    · exact .pure _
    refine d'.follows.bind ?_
    rintro (e | b)
    · exact .pure _
    · exact .pure _
  | .seq call d d' => by
    rw [Recipe.assemble, Action.evaluate_seq, Action.evaluate_map, bind_assoc, Recipe.course]
    refine d.follows.bind ?_
    rintro (e | f)
    · exact .pure _
    refine d'.follows.bind ?_
    rintro (e | a)
    · exact .pure _
    · exact (call f a).follows.map _
  | .observe d => by
    rw [Recipe.assemble, Action.evaluate_observe, Recipe.course]
    exact d.follows.bind fun r => .pure _
  | .tryCatch d c k => by
    rw [Recipe.assemble, Action.evaluate_tryCatch, Recipe.course]
    refine d.follows.bind ?_
    rintro (e | a)
    · exact (c e).follows.make fun i => (k i).follows
    · exact .pure _
  | .recover d h => by
    rw [Recipe.assemble, Action.evaluate_recover, Recipe.course]
    refine d.follows.bind ?_
    rintro (e | a)
    · exact (h e).follows.map _
    · exact .pure _
  | .mapError d f => by
    rw [Recipe.assemble, Action.evaluate_mapError, Recipe.course]
    refine d.follows.bind ?_
    rintro (e | a)
    · exact (f e).follows.map _
    · exact .pure _
  | .containPanic _ d => by
    rw [Recipe.assemble, Action.containPanic, Action.evaluate_ofFallible, Recipe.course]
    refine d.follows.caught.bind ?_
    rintro (p | r)
    · exact (Follows.note _).bind fun _ => .pure _
    · exact .pure r
  | .loop seed c k => by
    rw [Recipe.assemble, Action.evaluate_loop, Recipe.course]
    -- the recipe of a round is known only when the routine of its seed is done
    have h : ∀ t, Follows (Work.exceptRound
        (fun t => (do return (k (← (c t).toWork)).assemble) >>= Action.evaluate) t)
        (Course.exceptRound do (k (← (c t).course)).course) :=
      fun t => ((c t).follows.make fun i => (k i).follows).exceptRound
    exact (Follows.iterate h seed).bind fun r => (Follows.note _).bind fun _ => .pure _

/-- Host code follows its course, with the recipes inside it. -/
theorem Routine.follows {α : Type} : (c : Routine σ α) → Follows c.toWork c.course
  | .work _ steady => .limit steady
  | .bind c k => c.follows.bind fun a => (k a).follows
  | .caught c => c.follows.caught
  | .run d => d.follows.run

end

/-- **Adequacy.** Evaluating the action that a recipe builds has the outcomes of its
course, a value, a failure or a panic with the state reached, and no end where the
course has none. An answer that one budget allows is the answer under all larger
ones. -/
theorem evaluate_assemble_iff {ε α : Type} (d : Recipe σ ε α) (s : σ) :
    (∀ r s', (.ok r, s') ∈ d.course.runFrom s ↔ ∃ n, d.assemble.evaluate n s = .value r s') ∧
    (∀ p s', (.error p, s') ∈ d.course.runFrom s ↔ ∃ n, d.assemble.evaluate n s = .panic p s') ∧
    (¬(d.course.runFrom s).Dom ↔ ∀ n, d.assemble.evaluate n s = .exhausted) ∧
    ∀ m n, m ≤ n → d.assemble.evaluate m s ≠ .exhausted →
      d.assemble.evaluate n s = d.assemble.evaluate m s := by
  have h := d.follows
  refine ⟨fun r s' => h.ok_mem_iff, fun p s' => h.error_mem_iff, h.not_dom_iff, ?_⟩
  intro m n hmn he
  exact h.steady hmn he

/-- A loop that takes a note in each round and panics in its third one; the panic is
caught, and the failure that comes of it is handled by another run. -/
def rescue : Recipe (List Trace) Fault ℕ :=
  .tryCatch
    (.containPanic inferInstance (.loop 2
      (fun t => .work (emit .enter >>= fun _ => if t = 0 then Work.panic (.text "zero") else pure t)
        (by split <;> exact (Work.steady_update _).bind fun _ => .of_eq fun _ _ => rfl))
      fun t => .pure (.left (t - 1))))
    (fun e => .run (ε := Fault) (.pure e.text.length)) .ofExcept

theorem evaluate_assemble_rescue :
    (.ok (.ok 4), [.exit, .enter, .span .trace "io.run", Action.panicCaught (.text "zero"), .enter,
      .enter, .enter]) ∈ rescue.course.runFrom [] ∧
    4 ≤ 7 ∧ rescue.assemble.evaluate 4 [] ≠ .exhausted ∧
    rescue.assemble.evaluate 7 [] = rescue.assemble.evaluate 4 [] := by
  obtain ⟨hvalue, -, -, hsteady⟩ := evaluate_assemble_iff rescue []
  -- four rounds are allowed, and the loop panics in its third one
  have hne : rescue.assemble.evaluate 4 [] ≠ .exhausted := by
    intro h; cases h
  exact ⟨(hvalue _ _).2 ⟨4, rfl⟩, by omega, hne, hsteady 4 7 (by omega) hne⟩

end Deferral
