import Deferral.Carrier.Instances
import Deferral.Script.Session

/-!
# What the forms of an operation build

An operation that has two forms is given the same in both. The direct form is the combinator on
actions. The generic one is what the carrier classes have for actions: the combinator again, or
the default of the class, which is written in other operations and may end in another action.

* `Call`: a call of such an operation with all that it is given, and what it builds in each form.
* `Call.built_eq`: **the forms build the same action**, but for `recover`.
* `Call.seen_eq_iff`: so whatever tells the two kinds of work that was put off apart tells the
  forms of `recover` apart, and of no other operation.
* `forms_build_alike_iff`: the action, its kind and how it is shown are the same in both forms
  exactly if the operation is not `recover`.
-/

namespace Deferral

open Script (Form)

variable {σ ε α ρ : Type}

namespace Action

/-- What kind of action there is, without what it holds. -/
inductive Shape where
  | pure
  | failed
  | transformed
  | flattened
  deriving DecidableEq

/-- The kind of an action. -/
def shape : Action σ ε α → Shape
  | .pure _ => .pure
  | .failed _ => .failed
  | .transformed _ => .transformed
  | .flattened _ => .flattened

variable {a : Action σ ε α}

/-- Work that was put off is shown in one way, whatever it is. -/
theorem layout_of_transformed (ha : a.shape = .transformed) (value : α → Layout)
    (failure : ε → Layout) : a.layout value failure =
      .call "IO" [.call "Transformed" [.atom "\"<deferred>\""]] := by
  cases a with
  | transformed work => rfl
  | _ => cases ha

/-- Work that was put off and gives an action is shown in another way, whatever it is. -/
theorem layout_of_flattened (ha : a.shape = .flattened) (value : α → Layout)
    (failure : ε → Layout) : a.layout value failure =
      .call "IO" [.call "Flattened" [.atom "\"<deferred>\""]] := by
  cases a with
  | flattened work => rfl
  | _ => cases ha

end Action

/-- A call of an operation that has two forms, with the operands and functions it is given. -/
inductive Call (σ ε : Type) : Type → Type 1 where
  | ofValue {α : Type} (x : α) : Call σ ε α
  | throw {α : Type} (e : ε) : Call σ ε α
  | ofExcept {α : Type} (r : Except ε α) : Call σ ε α
  | map {α β : Type} (a : Action σ ε α) (f : α → Work σ β) : Call σ ε β
  | zipWith {α β γ : Type} (a : Action σ ε α) (b : Action σ ε β) (f : α → β → Work σ γ) :
      Call σ ε γ
  | zip {α β : Type} (a : Action σ ε α) (b : Action σ ε β) : Call σ ε (α × β)
  | seq {α β : Type} (f : Action σ ε (α → Work σ β)) (a : Action σ ε α) : Call σ ε β
  | bind {α β : Type} (a : Action σ ε α) (k : α → Work σ (Action σ ε β)) : Call σ ε β
  | andThen {α β : Type} (a : Action σ ε α) (k : α → Work σ (Action σ ε β)) : Call σ ε β
  | followedBy {α β : Type} (a : Action σ ε α) (b : Action σ ε β) : Call σ ε β
  | loop {τ β : Type} (seed : τ) (step : τ → Work σ (Action σ ε (Either τ β))) : Call σ ε β
  | observe {α : Type} (a : Action σ ε α) : Call σ ε (Except ε α)
  | tryCatch {α : Type} (a : Action σ ε α) (h : ε → Work σ (Action σ ε α)) : Call σ ε α
  | recover {α : Type} (a : Action σ ε α) (h : ε → Work σ α) : Call σ ε α

namespace Call

variable [Tracing σ]

/-- The action that a call builds in a form. -/
def built : Form → Call σ ε α → Action σ ε α
  | .direct, ofValue x => .pure x
  | .generic, ofValue x => Zippable.ofValue σ x
  | .direct, throw e => .failed e
  | .generic, throw e => Recoverable.throw σ e
  | .direct, ofExcept r => .ofExcept r
  | .generic, ofExcept r => Recoverable.ofExcept σ r
  | .direct, map a f => a.map f
  | .generic, map a f => Mappable.map (σ := σ) a f
  | .direct, zipWith a b f => a.zipWith b f
  | .generic, zipWith a b f => Zippable.zipWith (σ := σ) a b f
  | .direct, zip a b => a.zip b
  | .generic, zip a b => Zippable.zip (σ := σ) a b
  | .direct, seq f a => f.seq a
  | .generic, seq f a => Zippable.seq (σ := σ) f a
  | .direct, bind a k => a.bind k
  | .generic, bind a k => Chainable.bind (σ := σ) a k
  | .direct, andThen a k => a.andThen k
  | .generic, andThen a k => Chainable.andThen (σ := σ) a k
  | .direct, followedBy a b => a.followedBy b
  | .generic, followedBy a b => Chainable.followedBy (σ := σ) a b
  | .direct, loop seed step => .loop seed step
  | .generic, loop seed step => Chainable.loop (σ := σ) seed step
  | .direct, observe a => a.observe
  | .generic, observe a => Recoverable.observe σ a
  | .direct, tryCatch a h => a.tryCatch h
  | .generic, tryCatch a h => Recoverable.tryCatch (σ := σ) a h
  | .direct, recover a h => a.recover h
  | .generic, recover a h => Recoverable.recover (σ := σ) a h

/-- **The forms build the same action**, but for `recover`. -/
theorem built_eq {c : Call σ ε α} (hc : ∀ a h, c ≠ recover a h) :
    c.built .generic = c.built .direct := by
  -- the classes have the combinator, or a default that unfolds to it
  cases c with
  | ofExcept r => cases r <;> rfl
  | recover a h => exact absurd rfl (hc a h)
  | _ => rfl

/-- The default of `recover` is a handler, so it goes on with another action. -/
theorem shape_generic_recover (a : Action σ ε α) (h : ε → Work σ α) :
    ((recover a h).built .generic).shape = .flattened := rfl

/-- The combinator only changes the outcome. -/
theorem shape_direct_recover (a : Action σ ε α) (h : ε → Work σ α) :
    ((recover a h).built .direct).shape = .transformed := rfl

/-- What tells the two kinds of work that was put off apart is the same for both forms of a call
exactly if the operation is not `recover`. -/
theorem seen_eq_iff (c : Call σ ε α) (see : Action σ ε α → ρ)
    (htell : ∀ a a', a.shape = .flattened → a'.shape = .transformed → see a ≠ see a') :
    see (c.built .generic) = see (c.built .direct) ↔ ∀ a h, c ≠ recover a h := by
  constructor
  -- the forms of `recover` are of the two kinds that are told apart
  · rintro hsee a h rfl
    exact htell _ _ (shape_generic_recover a h) (shape_direct_recover a h) hsee
  · exact fun hc => congrArg see (built_eq hc)

/-- The forms of a call build the same, and what they build is shown alike, exactly if `p`. -/
structure AlikeIff (c : Call σ ε α) (p : Prop) : Prop where
  action : c.built .generic = c.built .direct ↔ p
  shape : (c.built .generic).shape = (c.built .direct).shape ↔ p
  compact (value : α → Layout) (failure : ε → Layout) :
    ((c.built .generic).layout value failure).compact =
      ((c.built .direct).layout value failure).compact ↔ p
  spread (value : α → Layout) (failure : ε → Layout) :
    ((c.built .generic).layout value failure).spread =
      ((c.built .direct).layout value failure).spread ↔ p

/-- Each way to look at an action tells the two kinds apart. -/
theorem alikeIff (c : Call σ ε α) : c.AlikeIff (∀ a h, c ≠ recover a h) where
  action := by
    refine c.seen_eq_iff id fun a a' ha ha' heq => ?_
    have hshape : a.shape = a'.shape := congrArg Action.shape heq
    rw [ha, ha'] at hshape
    cases hshape
  shape := by
    refine c.seen_eq_iff Action.shape fun a a' ha ha' => ?_
    rw [ha, ha']
    decide
  compact value failure := by
    refine c.seen_eq_iff (fun a => (a.layout value failure).compact) fun a a' ha ha' => ?_
    rw [Action.layout_of_flattened ha, Action.layout_of_transformed ha']
    decide
  spread value failure := by
    refine c.seen_eq_iff (fun a => (a.layout value failure).spread) fun a a' ha ha' => ?_
    rw [Action.layout_of_flattened ha, Action.layout_of_transformed ha']
    decide

end Call

/-- **The forms build alike, but for `recover`.** Whatever an operation is given, both of its forms
build the same action, so one of the same kind that is shown in the same way, exactly if the
operation is not `recover`. The generic form of that one always is work that gives an action, and
the direct form work that gives the outcome, and so they are shown. -/
theorem forms_build_alike_iff [Tracing σ] :
    (∀ (α : Type) (c : Call σ ε α), c.AlikeIff (∀ a h, c ≠ .recover a h)) ∧
    ∀ (α : Type) (a : Action σ ε α) (h : ε → Work σ α),
      ((Call.recover a h).built .generic).shape = .flattened ∧
      ((Call.recover a h).built .direct).shape = .transformed ∧
      ∀ (value : α → Layout) (failure : ε → Layout),
        (((Call.recover a h).built .generic).layout value failure).compact =
          "IO(Flattened(\"<deferred>\"))" ∧
        (((Call.recover a h).built .direct).layout value failure).compact =
          "IO(Transformed(\"<deferred>\"))" := by
  refine ⟨fun _ c => c.alikeIff, fun _ a h => ?_⟩
  have hgeneric := Call.shape_generic_recover a h
  have hdirect := Call.shape_direct_recover a h
  refine ⟨hgeneric, hdirect, fun value failure => ?_⟩
  rw [Action.layout_of_flattened hgeneric, Action.layout_of_transformed hdirect]
  exact ⟨rfl, rfl⟩

namespace Script

/-- Shows what is built to recover from a failure with its error. -/
def showRecovery (form : Form) : Step :=
  .displayExpr (.map (.recover form) (.hold (.failure .direct) (.int 1)) "e" (.var "e"))

/-- The forms of `recover` do not build the same kind of action, and it shows. -/
theorem recovery_shown_apart :
    (session 1 (World.fresh false .values []) [showRecovery .direct, showRecovery .generic]).map
        Report.ending =
      [some (.ok (.shown "IO(Transformed(\"<deferred>\"))")),
        some (.ok (.shown "IO(Flattened(\"<deferred>\"))"))] ∧
    ¬ ∀ c : Call Host Value Value, (c.built .generic).shape = (c.built .direct).shape := by
  refine ⟨rfl, fun hall => ?_⟩
  have hshape := hall (.recover (.failed (.int 1)) fun e => return e)
  cases hshape

end Script
end Deferral
