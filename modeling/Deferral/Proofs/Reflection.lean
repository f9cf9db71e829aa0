import Deferral.Proofs.Code
import Deferral.Proofs.Unseen

/-!
# Reifying and reflecting

An action can be made a value and an action again: its outcome by `observe` and `ofExcept`, its
failure by a handler that raises it, its making by `defer`, and all of it by a run inside of work
that is put off. Nothing that is done along the way shows, but for the notes of a run. Code
cannot see these (`blind_hereditary`), so that whatever it writes is the same after as before.

* `ReflectionLaws.of_blind`: the laws for an action that does not see the trace.
* `World.untraced`, `blind_hereditary`: scripts see all of the world but the notes in its journal.
* `reflection_transparent`: **reifying and reflecting an action changes nothing.**
-/

namespace Deferral

variable {σ ρ ε α : Type}

/-- An action is the same after it was reified and reflected. What `view` leaves out may
differ where a nested run takes its notes. -/
structure ReflectionLaws [Tracing σ] (view : σ → ρ) (a : Action σ ε α) : Prop where
  /-- An outcome that was made a value is no failure. -/
  observe (n : ℕ) (s : σ) (e : ε) (s' : σ) : a.observe.evaluate n s ≠ .value (.error e) s'
  /-- The outcome as a value, and as an outcome again. -/
  rethrow : (a.observe.bind fun r => return .ofExcept r).evaluate = a.evaluate
  /-- The making of the action is put off. -/
  defer : (Action.defer (return a)).evaluate = a.evaluate
  /-- The failure is raised again by its handler. -/
  reraise : (a.tryCatch fun e => return .failed e).evaluate = a.evaluate
  /-- The failure is changed to itself. -/
  mapError : (a.mapError fun e => return e).evaluate = a.evaluate
  /-- The action is run by work that may fail. -/
  fallible (n : ℕ) (s : σ) :
    ((Action.ofFallible a.run).evaluate n s).Same view (a.evaluate n s)
  /-- The action is run by work that cannot fail, which gives the outcome as a value. -/
  work (n : ℕ) (s : σ) :
    ((Action.ofWork a.run : Action σ ε (Except ε α)).evaluate n s).Same view
      (a.observe.evaluate n s)

theorem Action.observe_ne_error (a : Action σ ε α) (n : ℕ) (s : σ) (e : ε) (s' : σ) :
    a.observe.evaluate n s ≠ .value (.error e) s' := by
  -- after each ending of the action the outcome is a value, or there is none
  rw [evaluate_observe, Work.bind_run]
  cases a.evaluate n s <;> nofun

/-- An outcome that was made a value is made an outcome again. -/
theorem Action.evaluate_observe_bind_ofExcept (a : Action σ ε α) :
    (a.observe.bind fun r => return .ofExcept r).evaluate = a.evaluate := by
  rw [evaluate_bind, evaluate_observe, bind_assoc]
  refine (bind_congr fun r => ?_).trans (bind_pure a.evaluate)
  exact evaluate_ofExcept r

theorem Action.evaluate_tryCatch_failed (a : Action σ ε α) :
    (a.tryCatch fun e => return .failed e).evaluate = a.evaluate := by
  rw [evaluate_tryCatch]
  refine (bind_congr fun r => ?_).trans (bind_pure a.evaluate)
  cases r with
  | ok x => rfl
  | error e => rfl

theorem Action.evaluate_mapError_pure (a : Action σ ε α) :
    (a.mapError fun e => return e).evaluate = a.evaluate := by
  rw [evaluate_mapError]
  refine (bind_congr fun r => ?_).trans (bind_pure a.evaluate)
  cases r with
  | ok x => rfl
  | error e => rfl

theorem ReflectionLaws.of_blind [Tracing σ] {view : σ → ρ}
    (hview : ∀ t s, view (Tracing.note t s) = view s) {a : Action σ ε α}
    (ha : a.evaluate.Blind view) : ReflectionLaws view a where
  observe := a.observe_ne_error
  rethrow := a.evaluate_observe_bind_ofExcept
  defer := (Action.evaluate_defer _).trans (pure_bind a _)
  reraise := a.evaluate_tryCatch_failed
  mapError := a.evaluate_mapError_pure
  fallible n _ := a.run_same hview ha n rfl
  work n _ := (a.run_same hview ha n rfl).map Except.ok

/-- Work that cannot fail, as an action in three ways. -/
structure WorkLaws (ε : Type) (g : Work σ α) : Prop where
  fallible :
    (Action.ofFallible (Except.ok <$> g) : Action σ ε α).evaluate = (Action.ofWork g).evaluate
  defer :
    (Action.defer (do return .pure (← g)) : Action σ ε α).evaluate = (Action.ofWork g).evaluate

theorem WorkLaws.of_work (g : Work σ α) : WorkLaws ε g where
  fallible := rfl
  defer := by
    rw [Action.evaluate_defer, bind_assoc]
    exact (bind_congr fun _ => pure_bind _ _).trans (map_eq_pure_bind _ g).symm

namespace Script

/-- The entries of a journal that scripts have logged. -/
def Entry.isLogged : Entry → Bool
  | .logged _ => true
  | .traced _ => false

/-- The world without the notes in its journal. -/
def World.untraced {κ : Type} (w : World κ) : World κ :=
  { w with journal := w.journal.filter Entry.isLogged }

theorem untraced_note (t : Trace) (s : Host) : (Tracing.note t s).untraced = s.untraced := by
  have hjournal : (s.journal.push (.traced t)).filter Entry.isLogged =
      s.journal.filter Entry.isLogged := Array.filter_push_of_neg nofun (Array.size_push _)
  change (if s.tracing then _ else s : Host).untraced = _
  split
  · exact congrArg (fun j => ({ s with journal := j } : Host)) hjournal
  · rfl

theorem untraced_log (v : Value) (s : Host) : (s.log v).untraced = s.untraced.log v := by
  have hjournal : (s.journal.push (.logged v)).filter Entry.isLogged =
      (s.journal.filter Entry.isLogged).push (.logged v) :=
    Array.filter_push_of_pos rfl (Array.size_push _)
  exact congrArg (fun j => ({ s with journal := j } : Host)) hjournal

/-- An update that does the same to the view. -/
theorem blind_modify {f : Host → Host} (hf : ∀ s : Host, (f s).untraced = f s.untraced) :
    (modify f : Work Host PUnit).Blind World.untraced :=
  Work.blind_update fun s s' h => by rw [hf, hf, h]

/-- Something that is read off the world. -/
theorem blind_read {f : Host → Work Host α} (hf : ∀ s : Host, f s.untraced = f s)
    (hblind : ∀ s, (f s).Blind World.untraced) :
    (get >>= f : Work Host α).Blind World.untraced := by
  intro n s s' h
  have hread : f s = f s' := by rw [← hf s, h, hf s']
  change (f s n s).Same _ (f s' n s')
  rw [hread]
  exact hblind s' n s s' h

/-- A line is taken from the input, which is seen. -/
theorem blind_takeLine : (modifyGet (Console.takeLine : Host → Except Fault String × Host) :
    Work Host _).Blind World.untraced := by
  intro n s s' h
  -- the input is a part of the view, so both take the same line and have the same rest
  have hinput : s.input = s'.input := (World.mk.inj h).2.2.2.2.2.1
  have hline : (Console.takeLine s).1 = (Console.takeLine s').1 := by
    change (World.takeLine s).1 = (World.takeLine s').1
    rw [World.takeLine, World.takeLine, hinput]
  have hrest : (Console.takeLine s).2.untraced = (Console.takeLine s').2.untraced := by
    change ({ s.untraced with input := (Text.splitLine s.input).2 } : Host) =
      { s'.untraced with input := (Text.splitLine s'.input).2 }
    rw [hinput, h]
  change (Ending.value (Console.takeLine s).1 (Console.takeLine s).2).Same _
    (Ending.value (Console.takeLine s').1 (Console.takeLine s').2)
  rw [hline]
  exact .value _ hrest

/-- **That code does not look at notes is hereditary.** -/
theorem blind_hereditary :
    Hereditary (Work.Blind World.untraced) (Work.Blind World.untraced) where
  code := ⟨Work.blind_pure, Work.blind_panic, Work.blind_giveUp, Work.Blind.bind⟩
  action := ⟨Work.blind_pure, Work.blind_panic, Work.blind_giveUp, Work.Blind.bind⟩
  evaluated := id
  failureOf v := by
    refine blind_read (fun _ => rfl) fun s => ?_
    cases s.channel.failure? v with
    | some e => exact Work.blind_pure e
    | none => exact Work.blind_panic _
  peekSlot name := by
    refine blind_read (fun _ => rfl) fun s => ?_
    cases s.slots.lookup name with
    | some p => exact Work.blind_pure p
    | none => exact Work.blind_panic _
  cell _ := blind_read (fun _ => rfl) fun _ => Work.blind_pure _
  log v := blind_modify (untraced_log v)
  setCell _ _ := blind_modify fun _ => rfl
  fill _ _ := blind_modify fun _ => rfl
  clear _ := blind_modify fun _ => rfl
  print t := blind_modify (f := Console.print t) fun _ => rfl
  takeLine := blind_takeLine
  iterate := Work.blind_iterate
  loopEnded _ _ := blind_emit untraced_note _
  containPanic := Action.blind_containPanic untraced_note
  run := Action.blind_run untraced_note

end Script

/-- **Reifying and reflecting an action changes nothing.** This is so for all actions that
scripts write: they end in the same way, with the same values logged, the same cells and
slots, the same output and the same input left. It is so on any host, for what the host does not
keep the notes in, if the action does not look at them. And work that cannot fail is the same
action in each of three ways to make one of it. -/
theorem reflection_transparent :
    (∀ (p : Script.Plan) (depth : ℕ),
      ReflectionLaws Script.World.untraced (p.assemble (Script.Runner.within depth))) ∧
    (∀ (σ ρ ε α : Type) [Tracing σ] (view : σ → ρ) (a : Action σ ε α),
      (∀ t s, view (Tracing.note t s) = view s) → a.evaluate.Blind view → ReflectionLaws view a) ∧
    ∀ (σ ε α : Type) (g : Work σ α), WorkLaws ε g := by
  refine ⟨fun p depth => ?_, ?_, fun σ ε α g => .of_work g⟩
  -- scripts are blind to notes by what they can do to the world; other actions are so by assumption
  · have hcode := Script.blind_hereditary.within depth
    exact .of_blind Script.untraced_note (Script.Plan.hereditary Script.blind_hereditary hcode p)
  · intro σ ρ ε α _ view a hview ha
    exact .of_blind hview ha

/-- Counts, and fails. -/
def countedFailure : Action (ℕ × List Trace) String ℕ := .ofFallible do
  Work.update fun s => (s.1 + 1, s.2)
  return .error "no"

theorem reflection_transparent_counted :
    countedFailure.evaluate.Blind Prod.fst ∧
    countedFailure.evaluate 1 (0, []) = .value (.error "no") (1, []) ∧
    (Action.ofFallible countedFailure.run).evaluate 1 (0, []) = .value (.error "no")
      (1, [.exit, .message .debug "effect evaluation failed" [], .enter, .span .trace "io.run"]) ∧
    ((Action.ofFallible countedFailure.run).evaluate 1 (0, [])).Same Prod.fst
      (countedFailure.evaluate 1 (0, [])) := by
  have hcount : (Work.update fun s : ℕ × List Trace => (s.1 + 1, s.2)).Blind Prod.fst :=
    Work.blind_update fun s s' h => congrArg Nat.succ h
  have hblind : countedFailure.evaluate.Blind Prod.fst := hcount.bind fun _ => Work.blind_pure _
  have hlaws := reflection_transparent.2.1 _ _ _ _ Prod.fst countedFailure (fun _ _ => rfl) hblind
  exact ⟨hblind, rfl, rfl, hlaws.fallible 1 (0, [])⟩

end Deferral
