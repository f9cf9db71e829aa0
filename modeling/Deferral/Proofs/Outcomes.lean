import Deferral.Proofs.Handlers

/-!
# Outcomes of carriers

What a carrier comes to is work that may fail, which is to say a computation in
`ExceptT ε (Work σ)`. Each operation of the carrier classes is an expression of that monad: its
operands in the order in which they are due, until one of them fails. The carriers have
each their own way to get there, and agree on it (`LawfulChainable`).

* `outcome_comp`: an operation on the result of another one.
* `outcome_seqLeft` and its neighbours: the operations that follow from others.
-/

namespace Deferral

variable {σ ε α β γ : Type}

/-- An optional value is there already; its one failure says nothing. -/
instance : Answering σ Unit Option := ⟨fun x => return x.elim (.error ()) .ok⟩

/-- What a carrier comes to. -/
def held {F : Type → Type} [Answering σ ε F] (x : F α) : ExceptT ε (Work σ) α :=
  ExceptT.mk (answer x)

/-- What is seen of the result of an operation, once it is made. -/
def seen {m F : Type → Type} [MonadLiftT m (Work σ)] (obs : F α → Work σ (Except ε α))
    (x : m (F α)) : Work σ (Except ε α) :=
  liftM x >>= obs

/-- What the result of an operation comes to. -/
def outcome (σ : Type) {m F : Type → Type} [MonadLiftT m (Work σ)] [Answering σ ε F] (x : m (F α)) :
    ExceptT ε (Work σ) α :=
  ExceptT.mk (seen answer x)

/-- An operation on the result of another one. -/
theorem outcome_comp {m m' F : Type → Type} [MonadLiftT m (Work σ)] [MonadLiftT m' (Work σ)]
    [Answering σ ε F] (x : m (F α)) {f : F α → m' (F β)} {k : α → ExceptT ε (Work σ) β}
    (h : ∀ z, outcome σ (f z) = held z >>= k) :
    outcome σ (do liftM (f (← liftM x)) : Work σ (F β)) = outcome σ x >>= k := by
  -- `h` is about `ExceptT`, where a failure skips the rest; below that it is a case of the answer
  have hk : ∀ z, seen answer (f z) = answer z >>= ExceptT.bindCont k := fun z =>
    congrArg ExceptT.run (h z)
  refine congrArg ExceptT.mk ((bind_assoc _ _ _).trans ?_)
  exact (bind_congr hk).trans (bind_assoc _ _ _).symm

/-- Carriers whose operations come to what they say. -/
class LawfulChainable (σ : Type) (m : outParam (Type → Type)) (ε : outParam Type)
    (F : Type → Type) [Chainable σ m F] [MonadLiftT m (Work σ)] [Answering σ ε F] : Prop where
  mapConst_eq_map {α β : Type} (x : F α) (b : β) :
    Mappable.mapConst σ x b = Mappable.map (σ := σ) x fun _ => return b
  seqLeft_eq_zipWith {α β : Type} (x : F α) (y : F β) :
    Zippable.seqLeft σ x y = Zippable.zipWith (σ := σ) x y fun a _ => return a
  seqRight_eq_zipWith {α β : Type} (x : F α) (y : F β) :
    Zippable.seqRight σ x y = Zippable.zipWith (σ := σ) x y fun _ b => return b
  followedBy_eq_bind {α β : Type} (x : F α) (y : F β) :
    Chainable.followedBy σ x y = Chainable.bind (σ := σ) x fun _ => return y
  held_ofValue {α : Type} (a : α) : held (σ := σ) (Zippable.ofValue σ a : F α) = return a
  outcome_map {α β : Type} (x : F α) (f : α → Work σ β) :
    outcome σ (Mappable.map x f) = do
      let a ← held x
      liftM (f a)
  outcome_zipWith {α β γ : Type} (x : F α) (y : F β) (f : α → β → Work σ γ) :
    outcome σ (Zippable.zipWith x y f) = do
      let a ← held x
      let b ← held y
      liftM (f a b)
  outcome_seq {α β : Type} (u : F (α → Work σ β)) (x : F α) :
    outcome σ (Zippable.seq u x) = do
      let f ← held u
      let a ← held x
      liftM (f a)
  outcome_bind {α β : Type} (x : F α) (k : α → Work σ (F β)) :
    outcome σ (Chainable.bind x k) = do
      let a ← held x
      outcome σ (k a)

/-- The result that is made of a value, once the value is there. -/
theorem outcome_ok (w : Work σ α) :
    outcome σ (Except.ok (ε := ε) <$> w) = (liftM w : ExceptT ε (Work σ) α) :=
  congrArg ExceptT.mk (bind_pure (Except.ok <$> w))

theorem outcome_some (w : Work σ α) :
    outcome σ (some <$> w) = (liftM w : ExceptT Unit (Work σ) α) :=
  congrArg ExceptT.mk (bind_map_left some w _)

instance [Tracing σ] : LawfulChainable σ Id ε (Action σ ε) where
  mapConst_eq_map _ _ := rfl
  seqLeft_eq_zipWith _ _ := rfl
  seqRight_eq_zipWith _ _ := rfl
  followedBy_eq_bind _ _ := rfl
  held_ofValue _ := rfl
  outcome_map _ _ := rfl
  outcome_zipWith x y f := congrArg ExceptT.mk (x.evaluate_zipWith y f)
  outcome_seq u x := by
    refine (congrArg ExceptT.mk (u.evaluate_seq x)).trans ?_
    refine congrArg ExceptT.mk (bind_congr fun r => ?_)
    cases r with
    | ok a => rfl
    | error e => rfl
  outcome_bind x k := congrArg ExceptT.mk (x.evaluate_bind k)

instance : LawfulChainable σ (Work σ) ε (Except ε) where
  mapConst_eq_map _ _ := rfl
  seqLeft_eq_zipWith _ _ := rfl
  seqRight_eq_zipWith _ _ := rfl
  followedBy_eq_bind _ _ := rfl
  held_ofValue _ := rfl
  outcome_map x f := by
    cases x with
    | ok a => exact outcome_ok (f a)
    | error e => rfl
  -- a left failure is the outcome, whatever is on the right: both sides were there from the start
  outcome_zipWith x y f := by
    rcases x with e | a
    · cases y <;> rfl
    · rcases y with e | b
      · rfl
      · exact outcome_ok (f a b)
  outcome_seq u x := by
    rcases u with e | g
    · cases x <;> rfl
    · rcases x with e | a
      · rfl
      · exact outcome_ok (g a)
  outcome_bind x k := by
    cases x with
    | ok a => rfl
    | error e => rfl

instance : LawfulChainable σ (Work σ) Unit Option where
  mapConst_eq_map _ _ := rfl
  seqLeft_eq_zipWith _ _ := rfl
  seqRight_eq_zipWith _ _ := rfl
  followedBy_eq_bind _ _ := rfl
  held_ofValue _ := rfl
  outcome_map x f := by
    cases x with
    | some a => exact outcome_some (f a)
    | none => rfl
  outcome_zipWith x y f := by
    rcases x with _ | a
    · rfl
    · rcases y with _ | b
      · rfl
      · exact outcome_some (f a b)
  outcome_seq u x := by
    rcases u with _ | g
    · rfl
    · rcases x with _ | a
      · rfl
      · exact outcome_some (g a)
  outcome_bind x k := by
    cases x with
    | some a => rfl
    | none => rfl

section Lawful

variable {m F : Type → Type} [Chainable σ m F] [MonadLiftT m (Work σ)] [Answering σ ε F]
  [LawfulChainable σ m ε F]

open LawfulChainable

/-- A value that some work gives, held once it is there. -/
theorem outcome_ofValue_map (w : Work σ α) :
    outcome σ (Zippable.ofValue (F := F) σ <$> w) = liftM w := by
  refine congrArg ExceptT.mk ((bind_map_left _ w _).trans ?_)
  exact (bind_congr fun a => congrArg ExceptT.run (held_ofValue a)).trans (bind_pure_comp _ w)

/-- The right value is dropped, though its operand has its turn. -/
theorem outcome_seqLeft (x : F α) (y : F β) :
    outcome σ (Zippable.seqLeft σ x y) = do
      let a ← held x
      let _ ← held y
      return a := by
  rw [seqLeft_eq_zipWith, outcome_zipWith]
  rfl

theorem outcome_seqRight (x : F α) (y : F β) :
    outcome σ (Zippable.seqRight σ x y) = held x >>= fun _ => held y := by
  rw [seqRight_eq_zipWith, outcome_zipWith]
  exact bind_congr fun _ => bind_pure (held y)

theorem outcome_followedBy (x : F α) (y : F β) :
    outcome σ (Chainable.followedBy σ x y) = held x >>= fun _ => held y := by
  rw [followedBy_eq_bind, outcome_bind]
  rfl

end Lawful

end Deferral
