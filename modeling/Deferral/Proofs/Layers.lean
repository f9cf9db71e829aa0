import Deferral.Action.Lemmas
import Deferral.Carrier.Instances
import Deferral.Script.Term
import Mathlib.Data.Nat.Notation

/-!
# Layers around an action

A layer is an operation with an action as its left operand: what is done to its
outcome. `Onward` layers only go on after a value; `Handling` layers look at
failures. In both kinds are all operations of the library, in the direct form and
in the one generic over carriers, but `containPanic`, which alone looks at panics.

* `Onward.evaluate_apply`, `Handling.evaluate_apply`, `Tower.evaluate_apply`: layers
  around an action are the action, then what the layers make of its outcome (`after`).
* `Passage.evaluate_failed`, `Tower.evaluate_panic`: through any number of layers, a
  failure passes those that do not look at it, and a panic all but `containPanic`.
* `evaluate_abort`: both, with the state that the action has left.
-/

namespace Deferral

open Script (Form)

variable {σ ε ε' α β γ : Type}

/-- An operation on an action that gives an `α`, which goes on only after a value. -/
inductive Onward (σ ε : Type) : Type → Type → Type 1 where
  | map {α β : Type} (form : Form) (f : α → Work σ β) : Onward σ ε α β
  | mapConst {α β : Type} (b : β) : Onward σ ε α β
  | discard {α : Type} : Onward σ ε α Unit
  | bind {α β : Type} (form : Form) (k : α → Work σ (Action σ ε β)) : Onward σ ε α β
  | andThen {α β : Type} (form : Form) (k : α → Work σ (Action σ ε β)) : Onward σ ε α β
  | followedBy {α β : Type} (form : Form) (b : Action σ ε β) : Onward σ ε α β
  | zipWith {α β γ : Type} (form : Form) (b : Action σ ε β) (f : α → β → Work σ γ) : Onward σ ε α γ
  | zip {α β : Type} (form : Form) (b : Action σ ε β) : Onward σ ε α (α × β)
  | seqLeft {α β : Type} (b : Action σ ε β) : Onward σ ε α α
  | seqRight {α β : Type} (b : Action σ ε β) : Onward σ ε α β
  /-- The action gives functions. -/
  | seq {α β : Type} (form : Form) (b : Action σ ε α) : Onward σ ε (α → Work σ β) β

/-- An operation on an action that fails with an `ε` or gives an `α`, which looks at
failures. -/
inductive Handling (σ : Type) : Type → Type → Type → Type → Type 1 where
  | observe {ε α : Type} (form : Form) : Handling σ ε α ε (Except ε α)
  | tryCatch {ε α : Type} (form : Form) (h : ε → Work σ (Action σ ε α)) : Handling σ ε α ε α
  | recover {ε α : Type} (form : Form) (h : ε → Work σ α) : Handling σ ε α ε α
  | orElse {ε α : Type} (b : Action σ ε α) : Handling σ ε α ε α
  | adapt {ε α : Type} (f : ε → Work σ ε) : Handling σ ε α ε α
  | mapError {ε ε' α : Type} (f : ε → Work σ ε') : Handling σ ε α ε' α

namespace Onward

/-- Puts the layer around an action. -/
def apply [Tracing σ] : Onward σ ε α β → Action σ ε α → Action σ ε β
  | map .direct f, a => a.map f
  | map .generic f, a => Mappable.map (σ := σ) a f
  | mapConst b, a => Mappable.mapConst (σ := σ) a b
  | discard, a => Mappable.discard (σ := σ) a
  | bind .direct k, a => a.bind k
  | bind .generic k, a => Chainable.bind (σ := σ) a k
  | andThen .direct k, a => a.andThen k
  | andThen .generic k, a => Chainable.andThen (σ := σ) a k
  | followedBy .direct b, a => a.followedBy b
  | followedBy .generic b, a => Chainable.followedBy (σ := σ) a b
  | zipWith .direct b f, a => a.zipWith b f
  | zipWith .generic b f, a => Zippable.zipWith (σ := σ) a b f
  | zip .direct b, a => a.zip b
  | zip .generic b, a => Zippable.zip (σ := σ) a b
  | seqLeft b, a => Zippable.seqLeft (σ := σ) a b
  | seqRight b, a => Zippable.seqRight (σ := σ) a b
  | seq .direct b, a => a.seq b
  | seq .generic b, a => Zippable.seq (σ := σ) a b

/-- What the layer does after a value. -/
def next : Onward σ ε α β → α → Work σ (Except ε β)
  | map _ f, a => Except.ok <$> f a
  | mapConst b, _ => return .ok b
  | discard, _ => return .ok ()
  | bind _ k, a | andThen _ k, a => k a >>= Action.evaluate
  | followedBy _ b, _ => b.evaluate
  | zipWith _ b f, a => (b.map (f a)).evaluate
  | zip _ b, a => (b.map fun y => return (a, y)).evaluate
  | seqLeft b, a => (b.map fun _ => return a).evaluate
  | seqRight b, _ => (b.map fun y => return y).evaluate
  | seq _ b, g => (b.map g).evaluate

/-- What the layer makes of an outcome. A failure is none of its business. -/
def after (l : Onward σ ε α β) : Except ε α → Work σ (Except ε β)
  | .ok a => l.next a
  | .error e => return .error e

/-- A layer that is a `bind` whose continuation does what comes next. -/
theorem evaluate_bind_eq (l : Onward σ ε α β) {k : α → Work σ (Action σ ε β)} (a : Action σ ε α)
    (hk : ∀ x, k x >>= Action.evaluate = l.next x) : (a.bind k).evaluate = a.evaluate >>= l.after := by
  rw [Action.evaluate_bind]
  refine bind_congr fun r => ?_
  cases r with
  | ok x => exact hk x
  | error e => rfl

variable [Tracing σ]

/-- The action, then the layer. -/
theorem evaluate_apply (l : Onward σ ε α β) (a : Action σ ε α) :
    (l.apply a).evaluate = a.evaluate >>= l.after := by
  cases l with
  | map form f => cases form <;> exact bind_congr fun r => by cases r <;> rfl
  -- these are not made of `bind`: they change the outcome of the action themselves
  | mapConst b => exact bind_congr fun r => by cases r <;> rfl
  | discard => exact bind_congr fun r => by cases r <;> rfl
  | bind form k | andThen form k =>
    cases form <;> exact evaluate_bind_eq _ a fun x => rfl
  | followedBy form b | zipWith form b f | zip form b | seq form b =>
    cases form <;> exact evaluate_bind_eq _ a fun x => pure_bind _ _
  | seqLeft b | seqRight b => exact evaluate_bind_eq _ a fun x => pure_bind _ _

end Onward

namespace Handling

/-- Puts the layer around an action. -/
def apply [Tracing σ] : Handling σ ε α ε' β → Action σ ε α → Action σ ε' β
  | observe .direct, a => a.observe
  | observe .generic, a => Recoverable.observe σ a
  | tryCatch .direct h, a => a.tryCatch h
  | tryCatch .generic h, a => Recoverable.tryCatch (σ := σ) a h
  | recover .direct h, a => a.recover h
  | recover .generic h, a => Recoverable.recover (σ := σ) a h
  | orElse b, a => Recoverable.orElse (σ := σ) a b
  | adapt f, a => Recoverable.adapt (σ := σ) a f
  | mapError f, a => a.mapError f

/-- What the layer makes of an outcome. -/
def after : Handling σ ε α ε' β → Except ε α → Work σ (Except ε' β)
  | observe _, r => return .ok r
  | tryCatch _ _, .ok a | recover _ _, .ok a | orElse _, .ok a | adapt _, .ok a
  | mapError _, .ok a => return .ok a
  | tryCatch _ h, .error e => h e >>= Action.evaluate
  | recover _ h, .error e => Except.ok <$> h e
  | orElse b, .error _ => b.evaluate
  | adapt f, .error e => Except.error <$> f e
  | mapError f, .error e => Except.error <$> f e

/-- A layer that is a `tryCatch` whose handler does what comes after a failure. -/
theorem evaluate_tryCatch_eq {l : Handling σ ε α ε α} {h : ε → Work σ (Action σ ε α)}
    (a : Action σ ε α) (hok : ∀ x, l.after (.ok x) = return .ok x)
    (herror : ∀ e, h e >>= Action.evaluate = l.after (.error e)) :
    (a.tryCatch h).evaluate = a.evaluate >>= l.after := by
  rw [Action.evaluate_tryCatch]
  refine bind_congr fun r => ?_
  cases r with
  | ok x => exact (hok x).symm
  | error e => exact herror e

variable [Tracing σ]

/-- The action, then the layer. -/
theorem evaluate_apply (l : Handling σ ε α ε' β) (a : Action σ ε α) :
    (l.apply a).evaluate = a.evaluate >>= l.after := by
  cases l with
  | observe form => cases form <;> rfl
  | tryCatch form h =>
    cases form <;> exact evaluate_tryCatch_eq (l := .tryCatch _ h) a (fun x => rfl) fun e => rfl
  | recover form h =>
    cases form with
    | direct => exact bind_congr fun r => by cases r <;> rfl
    -- the default of the class is a handler that makes an action of its value
    | generic =>
      refine evaluate_tryCatch_eq (l := .recover .generic h) a (fun x => rfl) fun e => ?_
      rw [after, bind_map_left, map_eq_pure_bind]
      rfl
  | orElse b => exact evaluate_tryCatch_eq (l := .orElse b) a (fun x => rfl) fun e => pure_bind _ _
  | adapt f =>
    refine evaluate_tryCatch_eq (l := .adapt f) a (fun x => rfl) fun e => ?_
    rw [after, bind_map_left, map_eq_pure_bind]
    rfl
  | mapError f => exact bind_congr fun r => by cases r <;> rfl

end Handling

/-- Layers around an action, the innermost first, none of which looks at failures.
Panics may be contained on the way. -/
inductive Passage (σ ε : Type) : Type → Type → Type 1 where
  | done {α : Type} : Passage σ ε α α
  | onward {α β γ : Type} (l : Onward σ ε α β) (outer : Passage σ ε β γ) : Passage σ ε α γ
  | containPanic {α γ : Type} (place : OfFault ε) (outer : Passage σ ε α γ) : Passage σ ε α γ

/-- Layers around an action, the innermost first, none of which looks at panics. -/
inductive Tower (σ : Type) : Type → Type → Type → Type → Type 1 where
  | done {ε α : Type} : Tower σ ε α ε α
  | onward {ε α β ε' γ : Type} (l : Onward σ ε α β) (outer : Tower σ ε β ε' γ) : Tower σ ε α ε' γ
  | handling {ε α ε₁ β ε' γ : Type} (l : Handling σ ε α ε₁ β) (outer : Tower σ ε₁ β ε' γ) :
      Tower σ ε α ε' γ

section Abort

variable [Tracing σ] {n : ℕ} {s s' : σ}

/-- Puts the layers around an action. -/
def Passage.apply {α γ : Type} : Passage σ ε α γ → Action σ ε α → Action σ ε γ
  | done, a => a
  | onward l outer, a => outer.apply (l.apply a)
  | containPanic _ outer, a => outer.apply a.containPanic

/-- Puts the layers around an action. -/
def Tower.apply {ε α ε' γ : Type} : Tower σ ε α ε' γ → Action σ ε α → Action σ ε' γ
  | done, a => a
  | onward l outer, a => outer.apply (l.apply a)
  | handling l outer, a => outer.apply (l.apply a)

/-- What the layers make of an outcome, one after the other. -/
def Tower.after {ε α ε' γ : Type} : Tower σ ε α ε' γ → Except ε α → Work σ (Except ε' γ)
  | done, r => return r
  | onward l outer, r => l.after r >>= outer.after
  | handling l outer, r => l.after r >>= outer.after

/-- The action, then the layers. -/
theorem Tower.evaluate_apply (t : Tower σ ε α ε' γ) (a : Action σ ε α) :
    (t.apply a).evaluate = a.evaluate >>= t.after := by
  -- on the layers: what is inside of the outer ones is an action too
  induction t with
  | done => exact (bind_pure a.evaluate).symm
  | onward l outer ih => rw [apply, ih, l.evaluate_apply, bind_assoc]; rfl
  | handling l outer ih => rw [apply, ih, l.evaluate_apply, bind_assoc]; rfl

/-- **A failure passes** all layers that do not look at it. -/
theorem Passage.evaluate_failed (p : Passage σ ε α γ) {a : Action σ ε α} {e : ε}
    (h : a.evaluate n s = .value (.error e) s') :
    (p.apply a).evaluate n s = .value (.error e) s' := by
  -- on the layers, from the inside: the failure is there again under the next one
  induction p with
  | done => exact h
  | onward l outer ih =>
    refine ih ?_
    rw [l.evaluate_apply, Work.bind_run, h]
    rfl
  | containPanic place outer ih => exact ih (Action.evaluate_containPanic_pure h)

/-- **A panic passes** all layers but `containPanic`. -/
theorem Tower.evaluate_panic (t : Tower σ ε α ε' γ) {a : Action σ ε α} {p : Payload}
    (h : a.evaluate n s = .panic p s') : (t.apply a).evaluate n s = .panic p s' := by
  rw [t.evaluate_apply, Work.bind_run, h]

end Abort

/-- **Nothing is swallowed on the way out.** A failure reaches the outside through all
layers that do not look at failures, and a panic through all but `containPanic`, as it
was raised, and in the state that the action has left. This is so whatever the layers
are given, so no function of theirs is called and no operand is run: there may be some
that panic or never end among them. -/
theorem evaluate_abort [Tracing σ] (a : Action σ ε α) (n : ℕ) (s s' : σ) :
    (∀ (γ : Type) (p : Passage σ ε α γ) (e : ε), a.evaluate n s = .value (.error e) s' →
      (p.apply a).evaluate n s = .value (.error e) s') ∧
    ∀ (ε' γ : Type) (t : Tower σ ε α ε' γ) (p : Payload), a.evaluate n s = .panic p s' →
      (t.apply a).evaluate n s = .panic p s' :=
  ⟨fun _ p _ h => p.evaluate_failed h, fun _ _ t _ h => t.evaluate_panic h⟩

/-- Takes a note, and leaves by `w`. -/
def leaving (w : Work (List Trace) (Except Fault ℕ)) : Action (List Trace) Fault ℕ :=
  .ofFallible do
    emit .enter
    w

/-- Layers with functions that panic and an operand that never ends. -/
def hazards : Passage (List Trace) Fault ℕ (Unit × ℕ) :=
  .onward (.bind .direct fun _ => Work.panic .mute) <| .containPanic inferInstance <|
    .onward (.discard (α := ℕ)) <| .onward (.zip .generic (.ofWork Work.giveUp)) .done

/-- Layers that look at failures, with handlers that would fail in another way. -/
def handlers : Tower (List Trace) Fault ℕ String (Except Fault ℕ) :=
  .handling (.tryCatch .direct fun _ => return .failed (.message "handled")) <|
    .handling (.recover .generic fun _ => Work.giveUp) <| .onward (.seqLeft (.pure ())) <|
      .handling (.observe .direct) <| .handling (.mapError fun e => return e.text) .done

/-- No hazard of the layers is met, by a failure or by a panic. -/
theorem evaluate_abort_hazards :
    (hazards.apply (leaving (return .error (.message "no")))).evaluate 1 [] =
      .value (.error (.message "no")) [.enter] ∧
    (handlers.apply (leaving (Work.panic (.text "boom")))).evaluate 1 [] =
      .panic (.text "boom") [.enter] :=
  ⟨(evaluate_abort _ 1 [] _).1 _ hazards _ rfl, (evaluate_abort _ 1 [] _).2 _ _ handlers _ rfl⟩

end Deferral
