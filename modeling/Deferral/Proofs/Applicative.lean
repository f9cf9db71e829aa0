import Deferral.Proofs.Outcomes

/-!
# The applicative laws

Functions travel as values through the carriers that hold them. They are applied in the order in
which they become due: the functions that two carriers come to, and the argument that a third one
comes to, are there before any of them is called, and then the inner one is called first.

A carrier of finished outcomes calls a function as soon as it is applied. So the inner one of two
applications is made before it is seen whether the outer function is there; that makes a
difference only to functions that have effects (`Ready`, `appliedTwice_error`).

* `outcome_appliedComposed`, `outcome_appliedTwice`: both sides of the law of composition come to
  the same, `applyInTurn`.
* `ApplicativeLaws.of_lawful`, `ApplicativeLaws.run`: the laws for what is evaluated, and for what
  is run.
* `applicative_laws`: **the applicative laws**, for actions, results and optional values.
-/

namespace Deferral

variable {σ ε α β γ : Type}

/-- Composition, of functions that are given one after the other. -/
def compose (g : β → Work σ γ) : Work σ ((α → Work σ β) → Work σ (α → Work σ γ)) :=
  return fun f => return fun x => f x >>= g

/-- A function without effects. -/
def plain (f : α → β) : α → Work σ β := fun a => return f a

/-- Comes to two functions and then to an argument, and calls the inner function before the
outer one. -/
def applyInTurn {F : Type → Type} [Answering σ ε F] (u : F (β → Work σ γ)) (v : F (α → Work σ β))
    (w : F α) : ExceptT ε (Work σ) γ := do
  let g ← held u
  let f ← held v
  let x ← held w
  liftM (f x >>= g)

section Carriers

variable {m F : Type → Type} [Chainable σ m F] [MonadLiftT m (Work σ)]

/-- Applies the composition of two functions. -/
def appliedComposed (u : F (β → Work σ γ)) (v : F (α → Work σ β)) (w : F α) : Work σ (F γ) := do
  let c ← liftM (Zippable.seq (Zippable.ofValue σ compose) u)
  let fg ← liftM (Zippable.seq (σ := σ) c v)
  liftM (Zippable.seq fg w)

/-- Applies one function to what the other one gives. -/
def appliedTwice (u : F (β → Work σ γ)) (v : F (α → Work σ β)) (w : F α) : Work σ (F γ) := do
  let y ← liftM (Zippable.seq v w)
  liftM (Zippable.seq u y)

/-- The outer function is there, or nothing is done to make the inner application. -/
def Ready [Answering σ ε F] (u : F (β → Work σ γ)) (v : F (α → Work σ β)) (w : F α) : Prop :=
  (∃ g, held (σ := σ) u = return g) ∨ ∃ y, liftM (Zippable.seq v w) = (return y : Work σ (F β))

end Carriers

/-- The applicative laws, by what `obs` sees of a carrier; `due` is what it sees of work that is not
done before it looks. Functions may have effects and panic, and where carriers put work off, so may
the operands. -/
structure ApplicativeLaws (σ : Type) (m : Type → Type) (ε : Type) (F : Type → Type)
    [Chainable σ m F] [MonadLiftT m (Work σ)] [Answering σ ε F]
    (obs : {α : Type} → F α → Work σ (Except ε α))
    (due : {α : Type} → ExceptT ε (Work σ) α → Work σ (Except ε α)) : Prop where
  identity {α : Type} (v : F α) :
    seen obs (Zippable.seq (σ := σ) (Zippable.ofValue σ fun a => return a) v) = obs v
  /-- The function is called when it is due, and not before. -/
  homomorphism {α β : Type} (f : α → Work σ β) (x : α) :
    seen obs (Zippable.seq (F := F) (Zippable.ofValue σ f) (Zippable.ofValue σ x)) =
      due (liftM (f x))
  interchange {α β : Type} (u : F (α → Work σ β)) (x : α) :
    seen obs (Zippable.seq u (Zippable.ofValue σ x)) =
      seen obs (Zippable.seq (Zippable.ofValue σ fun g => g x) u)
  /-- The operands are run once each, from left to right, until one of them fails; then the
  functions are called, the inner one first. -/
  composed {α β γ : Type} (u : F (β → Work σ γ)) (v : F (α → Work σ β)) (w : F α) :
    seen obs (appliedComposed u v w) = due (applyInTurn u v w)
  composition {α β γ : Type} (u : F (β → Work σ γ)) (v : F (α → Work σ β)) (w : F α)
    (h : Ready u v w) : seen obs (appliedComposed u v w) = seen obs (appliedTwice u v w)

section Lawful

variable {m F : Type → Type} [Chainable σ m F] [MonadLiftT m (Work σ)] [Answering σ ε F]
  [LawfulChainable σ m ε F]

open LawfulChainable

/-- A function that only returns its argument adds nothing. -/
theorem outcome_identity (v : F α) :
    outcome σ (Zippable.seq (σ := σ) (Zippable.ofValue σ fun a => return a) v) = held v := by
  rw [outcome_seq, held_ofValue, pure_bind]
  exact bind_pure (held v)

/-- A held function, applied to a held value, is called. -/
theorem outcome_homomorphism (f : α → Work σ β) (x : α) :
    outcome σ (Zippable.seq (F := F) (Zippable.ofValue σ f) (Zippable.ofValue σ x)) =
      liftM (f x) := by
  rw [outcome_seq, held_ofValue, held_ofValue, pure_bind, pure_bind]

/-- A held argument may be given to the function, or the function to the argument. -/
theorem outcome_interchange (u : F (α → Work σ β)) (x : α) :
    outcome σ (Zippable.seq u (Zippable.ofValue σ x)) =
      outcome σ (Zippable.seq (Zippable.ofValue σ fun g => g x) u) := by
  rw [outcome_seq, outcome_seq, held_ofValue, held_ofValue, pure_bind]
  exact bind_congr fun g => pure_bind x _

/-- A function of two arguments that is applied to one after the other. -/
theorem outcome_seq_seq (c : F (α → Work σ (β → Work σ γ))) (v : F α) (w : F β) :
    outcome σ (do liftM (Zippable.seq (← liftM (Zippable.seq c v)) w) : Work σ (F γ)) =
      held c >>= fun p => held v >>= fun a => liftM (p a) >>= fun q => held w >>= fun b =>
        liftM (q b) := by
  rw [outcome_comp _ (outcome_seq · w), outcome_seq]
  simp only [bind_assoc]

/-- The composition of two functions is called after all three operands have come to something. -/
theorem outcome_appliedComposed (u : F (β → Work σ γ)) (v : F (α → Work σ β)) (w : F α) :
    outcome σ (appliedComposed u v w) = applyInTurn u v w := by
  refine (outcome_comp _ (outcome_seq_seq · v w)).trans ?_
  rw [outcome_seq, held_ofValue, pure_bind, bind_assoc]
  refine bind_congr fun g => ?_
  simp only [compose, liftM_pure, pure_bind]

/-- The inner function is called before the outer one here too, if that one is there. -/
theorem outcome_appliedTwice (u : F (β → Work σ γ)) (v : F (α → Work σ β)) (w : F α)
    (h : Ready u v w) : outcome σ (appliedTwice u v w) = applyInTurn u v w := by
  -- either the outer function is there, or the inner application is made without work
  rcases h with ⟨g, hu⟩ | ⟨y, hy⟩
  · have hg : ∀ y : F β, outcome σ (Zippable.seq u y) = held y >>= fun b => liftM (g b) := by
      intro y
      rw [outcome_seq, hu, pure_bind]
    rw [appliedTwice, outcome_comp _ hg, outcome_seq, applyInTurn, hu, pure_bind]
    simp only [bind_assoc, liftM_bind]
  · have hheld : held y = outcome σ (Zippable.seq v w) :=
      congrArg (fun r => ExceptT.mk (r >>= answer)) hy.symm
    have hseq : appliedTwice u v w = liftM (Zippable.seq u y) := by
      rw [appliedTwice, hy, pure_bind]
    calc outcome σ (appliedTwice u v w)
        = outcome σ (Zippable.seq u y) := congrArg (outcome σ) hseq
      _ = applyInTurn u v w := by
        simp only [outcome_seq, hheld, applyInTurn, bind_assoc, liftM_bind]

/-- **The laws follow from what the operations come to.** -/
theorem ApplicativeLaws.of_lawful : ApplicativeLaws σ m ε F answer ExceptT.run where
  identity v := congrArg ExceptT.run (outcome_identity v)
  homomorphism f x := congrArg ExceptT.run (outcome_homomorphism f x)
  interchange u x := congrArg ExceptT.run (outcome_interchange u x)
  composed u v w := congrArg ExceptT.run (outcome_appliedComposed u v w)
  composition u v w h := congrArg ExceptT.run
    ((outcome_appliedComposed u v w).trans (outcome_appliedTwice u v w h).symm)

end Lawful

section Actions

variable [Tracing σ]

/-- What is seen of work when it is run as an action. -/
def Action.runDue (w : ExceptT ε (Work σ) α) : Work σ (Except ε α) :=
  (Action.ofFallible w.run).run

/-- The laws for actions that are run, each in a span of its own. -/
theorem ApplicativeLaws.run (h : ApplicativeLaws σ Id ε (Action σ ε) answer ExceptT.run) :
    ApplicativeLaws σ Id ε (Action σ ε) Action.run Action.runDue where
  identity v := Action.run_eq_of_evaluate (h.identity v)
  homomorphism f x := Action.run_eq_of_evaluate (h.homomorphism f x)
  interchange u x := Action.run_eq_of_evaluate (h.interchange u x)
  composed u v w := Action.run_eq_of_evaluate (h.composed u v w)
  composition u v w hr := Action.run_eq_of_evaluate (h.composition u v w hr)

/-- Nothing is done to make an application of actions. -/
theorem Action.ready (u : Action σ ε (β → Work σ γ)) (v : Action σ ε (α → Work σ β))
    (w : Action σ ε α) : Ready u v w :=
  .inr ⟨v.seq w, rfl⟩

end Actions

/-- To call a plain function is to do nothing. -/
theorem Except.ready_plain (u : Except ε (β → Work σ γ)) (v : Except ε (α → β)) (w : Except ε α) :
    Ready u (plain (σ := σ) <$> v) w := by
  refine .inr ?_
  rcases v with e | f
  · exact ⟨.error e, rfl⟩
  · rcases w with e | x
    · exact ⟨.error e, rfl⟩
    · exact ⟨.ok (f x), rfl⟩

/-- An absent outer function makes no difference to a plain inner one. -/
theorem Option.ready_plain (u : Option (β → Work σ γ)) (v : Option (α → β)) (w : Option α) :
    Ready u (plain (σ := σ) <$> v) w := by
  refine .inr ?_
  rcases v with _ | f
  · exact ⟨none, rfl⟩
  · rcases w with _ | x
    · exact ⟨none, rfl⟩
    · exact ⟨some (f x), rfl⟩

/-- If the outer function is missing, the inner application is made all the same. -/
theorem appliedTwice_error (e : ε) (v : Except ε (α → Work σ β)) (w : Except ε α) :
    appliedTwice (γ := γ) (.error e) v w =
      (Zippable.seq v w : Work σ (Except ε β)) >>= fun _ => return .error e :=
  bind_congr fun y => by cases y <;> rfl

/-- **The applicative laws.** They hold of actions, by what is evaluated and so by what is run, for
all operands and functions, and of results and optional values, where the law of composition
asks for the outer function or for an inner one without effects. -/
theorem applicative_laws [Tracing σ] :
    (ApplicativeLaws σ Id ε (Action σ ε) answer ExceptT.run ∧
      ApplicativeLaws σ Id ε (Action σ ε) Action.run Action.runDue ∧
      ∀ {α β γ : Type} (u : Action σ ε (β → Work σ γ)) (v : Action σ ε (α → Work σ β))
        (w : Action σ ε α), Ready u v w) ∧
    (ApplicativeLaws σ (Work σ) ε (Except ε) answer ExceptT.run ∧
      ∀ {α β γ : Type} (u : Except ε (β → Work σ γ)) (v : Except ε (α → β)) (w : Except ε α),
        Ready u (plain (σ := σ) <$> v) w) ∧
    ApplicativeLaws σ (Work σ) Unit Option answer ExceptT.run ∧
      ∀ {α β γ : Type} (u : Option (β → Work σ γ)) (v : Option (α → β)) (w : Option α),
        Ready u (plain (σ := σ) <$> v) w :=
  ⟨⟨.of_lawful, .run .of_lawful, Action.ready⟩, ⟨.of_lawful, Except.ready_plain⟩,
    .of_lawful, Option.ready_plain⟩

/-- Gives a value, and lists that it did. -/
def telling (t : String) (x : α) : Work Complaints α := do
  Work.update fun s => (s.1 ++ [t], s.2)
  return x

/-- An action that comes to a function, which adds a number. -/
def adder (outer inner : String) (k : ℕ) : Action Complaints String (ℕ → Work Complaints ℕ) :=
  .ofWork (telling outer fun x => telling inner (x + k))

/-- Two adders and a number. -/
def twoAdders : Work Complaints (Action Complaints String ℕ) :=
  appliedTwice (adder "u" "g" 1) (adder "v" "f" 2) (.ofWork (telling "w" 3))

theorem applicative_laws_adders :
    Ready (adder "u" "g" 1) (adder "v" "f" 2) (.ofWork (telling "w" 3)) ∧
      (twoAdders >>= answer) 1 ([], []) = .value (.ok 6) (["u", "v", "w", "f", "g"], []) := by
  have hready : Ready (adder "u" "g" 1) (adder "v" "f" 2) (.ofWork (telling "w" 3)) :=
    applicative_laws.1.2.2 _ _ _
  have hlaws := (applicative_laws (σ := Complaints) (ε := String)).1.1
  have htwice : twoAdders >>= answer = ExceptT.run (applyInTurn _ _ _) :=
    (hlaws.composition _ _ _ hready).symm.trans (hlaws.composed _ _ _)
  refine ⟨hready, ?_⟩
  rw [htwice]
  rfl

end Deferral
