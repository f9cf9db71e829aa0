import Deferral.Proofs.Outcomes
import Deferral.Proofs.Spans

/-!
# The operations cohere

The operations of a carrier are made one by one: by cases on the operands, from one another, or
as work that is put off. Still there is one meaning behind them, since each comes to what can be
said with `bind` and `ofValue`. The left operand comes first, so if it fails that is the end of
it: the right operand and the functions are left alone.

* `CoherenceLaws.of_lawful`: the laws follow from what the operations come to.
* `CoherenceLaws.run`: and hold of actions that are run if they hold of what is evaluated.
* `operations_cohere`: **the operations cohere**, for actions, results and optional values.
-/

namespace Deferral

variable {σ ε α β γ : Type}

/-- Wherever the first work fails, the second one ends with the same failure, and has done
neither more nor less. -/
def Work.FailsLike (w : Work σ (Except ε α)) (w' : Work σ (Except ε β)) : Prop :=
  ∀ n s e s', w n s = .value (.error e) s' → w' n s = .value (.error e) s'

/-- How the operations of a carrier go together, by what `obs` sees of the results. Functions may
have effects and panic, and where carriers put work off, so may the operands. -/
structure CoherenceLaws (σ : Type) (m : Type → Type) (ε : Type) (F : Type → Type)
    [Chainable σ m F] [MonadLiftT m (Work σ)]
    (obs : {α : Type} → F α → Work σ (Except ε α)) : Prop where
  /-- To combine two values is to go on from the first one with a map of the second. -/
  zipWith {α β γ : Type} (x : F α) (y : F β) (f : α → β → Work σ γ) :
    seen obs (Zippable.zipWith x y f) =
      seen obs (Chainable.bind (σ := σ) x fun a => liftM (Mappable.map y fun b => f a b))
  /-- To apply a function is to combine it with its argument. -/
  seq {α β : Type} (u : F (α → Work σ β)) (v : F α) :
    seen obs (Zippable.seq u v) = seen obs (Zippable.zipWith u v fun g b => g b)
  /-- To keep the right value is to go on with the right operand. -/
  seqRight {α β : Type} (x : F α) (y : F β) :
    seen obs (Zippable.seqRight σ x y) = seen obs (Chainable.followedBy σ x y)
  /-- To keep the left value is to put it in place of the right one. -/
  seqLeft {α β : Type} (x : F α) (y : F β) :
    seen obs (Zippable.seqLeft σ x y) =
      seen obs (Chainable.bind (σ := σ) x fun a =>
        liftM (Mappable.map (σ := σ) y fun _ => return a))
  /-- To map is to go on with the value that the function gives. -/
  map {α β : Type} (x : F α) (g : α → Work σ β) :
    seen obs (Mappable.map x g) =
      seen obs (Chainable.bind (σ := σ) x fun a => Zippable.ofValue σ <$> g a)
  /-- To replace a value is to map it to another one. -/
  mapConst {α β : Type} (x : F α) (c : β) :
    seen obs (Mappable.mapConst σ x c) = seen obs (Mappable.map (σ := σ) x fun _ => return c)
  /-- Two maps are one, with the functions called in turn. -/
  map_map {α β γ : Type} (x : F α) (g : α → Work σ β) (h : β → Work σ γ) :
    seen obs (do liftM (Mappable.map (← liftM (Mappable.map x g)) h) : Work σ (F γ)) =
      seen obs (Mappable.map x fun a => g a >>= h)
  /-- If the left operand fails, so does the whole, whatever the right operand and the
  function are: they are not called, or their effects would be seen. -/
  zipWith_left {α β γ : Type} (x : F α) (y : F β) (f : α → β → Work σ γ) :
    (obs x).FailsLike (seen obs (Zippable.zipWith x y f))
  seq_left {α β : Type} (u : F (α → Work σ β)) (v : F α) :
    (obs u).FailsLike (seen obs (Zippable.seq u v))
  seqLeft_left {α β : Type} (x : F α) (y : F β) :
    (obs x).FailsLike (seen obs (Zippable.seqLeft σ x y))
  seqRight_left {α β : Type} (x : F α) (y : F β) :
    (obs x).FailsLike (seen obs (Zippable.seqRight σ x y))
  followedBy_left {α β : Type} (x : F α) (y : F β) :
    (obs x).FailsLike (seen obs (Chainable.followedBy σ x y))

/-- What comes after a failure and leaves it as it is. -/
theorem Work.failsLike_bind (w : Work σ (Except ε α)) (k : Except ε α → Work σ (Except ε β))
    (hk : ∀ e, k (.error e) = return .error e) : w.FailsLike (w >>= k) := by
  intro n s e s' h
  rw [bind_run, h]
  exact congrFun (congrFun (hk e) n) s'

/-- An operation that starts with an operand fails with it. -/
theorem failsLike_of_outcome {m F : Type → Type} [MonadLiftT m (Work σ)] [Answering σ ε F]
    {x : F α} {y : m (F β)} {k : α → ExceptT ε (Work σ) β} (h : outcome σ y = held x >>= k) :
    Work.FailsLike (σ := σ) (answer x) (seen answer y) := by
  have hseen : seen answer y = answer x >>= ExceptT.bindCont k := congrArg ExceptT.run h
  rw [hseen]
  exact Work.failsLike_bind _ _ fun _ => rfl

section Lawful

variable {m F : Type → Type} [Chainable σ m F] [MonadLiftT m (Work σ)] [Answering σ ε F]
  [LawfulChainable σ m ε F]

open LawfulChainable

/-- Both go on from the first value with the second operand mapped. -/
theorem outcome_zipWith_eq_bind (x : F α) (y : F β) (f : α → β → Work σ γ) :
    outcome σ (Zippable.zipWith x y f) =
      outcome σ (Chainable.bind (σ := σ) x fun a => liftM (Mappable.map y fun b => f a b)) := by
  rw [outcome_zipWith, outcome_bind]
  exact bind_congr fun a => (outcome_map y (f a)).symm

theorem outcome_map_eq_bind (x : F α) (g : α → Work σ β) :
    outcome σ (Mappable.map x g) =
      outcome σ (Chainable.bind (σ := σ) x fun a => Zippable.ofValue σ <$> g a) := by
  rw [outcome_map, outcome_bind]
  exact bind_congr fun a => (outcome_ofValue_map (g a)).symm

/-- The second function is called after the first, with nothing in between. -/
theorem outcome_map_map (x : F α) (g : α → Work σ β) (h : β → Work σ γ) :
    outcome σ (do liftM (Mappable.map (← liftM (Mappable.map x g)) h) : Work σ (F γ)) =
      outcome σ (Mappable.map x fun a => g a >>= h) := by
  -- the first map is made before the second is told of it, so both are work that comes to an
  -- outcome
  rw [outcome_comp _ (outcome_map · h), outcome_map, outcome_map, bind_assoc]
  exact bind_congr fun a => (liftM_bind (g a) h).symm

/-- **The laws follow from what the operations come to.** -/
theorem CoherenceLaws.of_lawful : CoherenceLaws σ m ε F answer where
  zipWith x y f := congrArg ExceptT.run (outcome_zipWith_eq_bind x y f)
  seq u v := congrArg ExceptT.run ((outcome_seq u v).trans (outcome_zipWith u v _).symm)
  seqRight x y := congrArg ExceptT.run ((outcome_seqRight x y).trans (outcome_followedBy x y).symm)
  seqLeft x y := by
    rw [seqLeft_eq_zipWith]
    exact congrArg ExceptT.run (outcome_zipWith_eq_bind x y _)
  map x g := congrArg ExceptT.run (outcome_map_eq_bind x g)
  mapConst x c := by rw [mapConst_eq_map]
  map_map x g h := congrArg ExceptT.run (outcome_map_map x g h)
  zipWith_left x y f := failsLike_of_outcome (outcome_zipWith x y f)
  seq_left u v := failsLike_of_outcome (outcome_seq u v)
  seqLeft_left x y := failsLike_of_outcome (outcome_seqLeft x y)
  seqRight_left x y := failsLike_of_outcome (outcome_seqRight x y)
  followedBy_left x y := failsLike_of_outcome (outcome_followedBy x y)

end Lawful

section Run

variable [Tracing σ]

/-- A run fails like another one if the evaluations do. -/
theorem Work.FailsLike.run {a : Action σ ε α} {b : Action σ ε β}
    (h : a.evaluate.FailsLike b.evaluate) : a.run.FailsLike b.run := by
  intro n s e s' hrun
  rw [Action.run_eq_outOfSpan] at hrun ⊢
  rcases ha : a.evaluate n (intoSpan s) with ⟨e' | x, t⟩ | ⟨p, t⟩ | _
  · rw [h n _ e' t ha]
    rw [ha] at hrun
    cases hrun
    rfl
  -- a run that fails has an evaluation that fails inside it
  all_goals
    rw [ha] at hrun
    cases hrun

/-- The laws for actions that are run, each in a span of its own. -/
theorem CoherenceLaws.run (h : CoherenceLaws σ Id ε (Action σ ε) answer) :
    CoherenceLaws σ Id ε (Action σ ε) Action.run where
  zipWith x y f := Action.run_eq_of_evaluate (h.zipWith x y f)
  seq u v := Action.run_eq_of_evaluate (h.seq u v)
  seqRight x y := Action.run_eq_of_evaluate (h.seqRight x y)
  seqLeft x y := Action.run_eq_of_evaluate (h.seqLeft x y)
  map x g := Action.run_eq_of_evaluate (h.map x g)
  mapConst x c := Action.run_eq_of_evaluate (h.mapConst x c)
  map_map x g k := Action.run_eq_of_evaluate (h.map_map x g k)
  zipWith_left x y f := (h.zipWith_left x y f).run
  seq_left u v := (h.seq_left u v).run
  seqLeft_left x y := (h.seqLeft_left x y).run
  seqRight_left x y := (h.seqRight_left x y).run
  followedBy_left x y := (h.followedBy_left x y).run

end Run

/-- **The operations cohere.** Actions, by what is evaluated and so by what is run, results and
optional values have one meaning for all their operations: that of `bind` and `ofValue`, from
left to right, with the failure of the left operand as the end of it. -/
theorem operations_cohere [Tracing σ] :
    CoherenceLaws σ Id ε (Action σ ε) answer ∧ CoherenceLaws σ Id ε (Action σ ε) Action.run ∧
      CoherenceLaws σ (Work σ) ε (Except ε) answer ∧
      CoherenceLaws σ (Work σ) Unit Option answer :=
  ⟨.of_lawful, .run .of_lawful, .of_lawful, .of_lawful⟩

/-- Lists a failure, and fails with it. -/
def complaining (e : String) : Action Complaints String ℕ := .ofFallible do
  Work.update fun s => (s.1 ++ [e], s.2)
  return .error e

/-- Two failures, to be combined by a function that unwinds. -/
def twoComplaints : Action Complaints String ℕ :=
  (complaining "left").zipWith (complaining "right") fun _ (_ : ℕ) => Work.panic .mute

/-- The right one of two failures is not listed, and the function does not unwind. -/
theorem operations_cohere_twoFailures :
    (complaining "left").evaluate 1 (["before"], []) =
        .value (.error "left") (["before", "left"], []) ∧
      twoComplaints.evaluate 1 (["before"], []) =
        .value (.error "left") (["before", "left"], []) := by
  have hleft : (complaining "left").evaluate 1 (["before"], []) =
      .value (.error "left") (["before", "left"], []) := rfl
  exact ⟨hleft, operations_cohere.1.zipWith_left (complaining "left") (complaining "right")
    (fun _ _ => Work.panic .mute) _ _ _ _ hleft⟩

end Deferral
