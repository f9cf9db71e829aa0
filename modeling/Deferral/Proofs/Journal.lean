import Deferral.Proofs.Code
import Deferral.Proofs.Deeds

/-!
# The journal of a session

To have deeds is a property that work has if its parts have it, so each step of a session has
deeds: the terms it computes and the actions it runs are put together from parts that have.
Outside of actions there are only log entries and runs; actions may also contain panics and loop.

* `accounted_hereditary`: to have deeds passes from parts to what is made of them.
* `report_told`: one step.
* `session_journal`: **the journal of a session is that of its deeds**, step by step.
-/

namespace Deferral.Script

variable {P : Deed → Prop} {α : Type}

section World

theorem accounted_modify {f : Host → Host}
    (h : ∀ s, (f s).tracing = s.tracing ∧ (f s).journal = s.journal) :
    Accounted P (modify f : Work Host PUnit) :=
  accounted_of_quiet fun n s s' hs' => by cases hs'; exact h s

theorem accounted_get : Accounted P (get : Work Host Host) :=
  accounted_of_quiet fun n s s' hs' => by cases hs'; exact ⟨rfl, rfl⟩

theorem accounted_failureOf (v : Value) : Accounted P (failureOf v : Work Host Value) := by
  refine accounted_get.bind fun s => ?_
  cases s.channel.failure? v with
  | some e => exact accounted_pure e
  | none => exact accounted_panic _

theorem accounted_peekSlot (name : String) : Accounted P (peekSlot name : Work Host Plan) := by
  refine accounted_get.bind fun s => ?_
  cases s.slots.lookup name with
  | some p => exact accounted_pure p
  | none => exact accounted_panic _

/-- To log a value is a deed. -/
theorem accounted_log (v : Value) : Accounted Deed.Outer (modify (World.log v) : Work Host PUnit) :=
  accounted_of_plain [v] (by simp [Deed.Outer]) fun n s s' hs' => by
    cases hs'
    exact ⟨rfl, Array.toList_push⟩

theorem accounted_takeLine : Accounted P
    (modifyGet (Console.takeLine : Host → Except Fault String × Host) : Work Host _) :=
  accounted_of_quiet fun n s s' hs' => by cases hs'; exact ⟨rfl, rfl⟩

end World

/-- To have deeds is hereditary. -/
theorem accounted_hereditary : Hereditary (Accounted Deed.Outer) (Accounted Deed.Any) where
  code := ⟨accounted_pure, accounted_panic, accounted_giveUp, Accounted.bind⟩
  action := ⟨accounted_pure, accounted_panic, accounted_giveUp, Accounted.bind⟩
  evaluated := Accounted.any
  failureOf := accounted_failureOf
  peekSlot := accounted_peekSlot
  cell _ := accounted_get.map _
  log := accounted_log
  setCell _ _ := accounted_modify fun _ => ⟨rfl, rfl⟩
  fill _ _ := accounted_modify fun _ => ⟨rfl, rfl⟩
  clear _ := accounted_modify fun _ => ⟨rfl, rfl⟩
  print t := accounted_modify (f := Console.print t) fun _ => ⟨rfl, rfl⟩
  takeLine := accounted_takeLine
  iterate := accounted_iterate
  loopEnded := accounted_loopEnded
  containPanic := accounted_containPanic
  run := accounted_run

section Session

/-- A step that is done in `w`, with an empty journal, leads to this report and to the host
`w'`. If it ends at all, it has deeds, those outside of actions are log entries and runs,
and the report has what the journal is told of them. -/
structure Told (budget : ℕ) (w : Host) (step : Step) (report : Report Answer) (w' : Host) :
    Prop where
  ending : report.ending = (withRunner step.perform budget w.cleared).outcome?.map Prod.fst
  host : w' = (withRunner step.perform budget w.cleared).state?.getD w.cleared
  deeds : withRunner step.perform budget w.cleared = .exhausted ∧ report.journal = [] ∨
    (∃ ds, Enacts budget (withRunner step.perform budget) w.cleared
      (withRunner step.perform budget w.cleared) ds ∧ ∀ d ∈ ds, d.Outer) ∧
    ∀ ds, Enacts budget (withRunner step.perform budget) w.cleared
      (withRunner step.perform budget w.cleared) ds → report.journal = Deed.entriesAll ds
  bracketed : Bracketed 0 report.journal

/-- Steps that are done one after the other, and their reports. -/
inductive ToldAll (budget : ℕ) : Host → List Step → List (Report Answer) → Prop where
  | done {w : Host} : ToldAll budget w [] []
  | step {w w' : Host} {step : Step} {report : Report Answer} {steps : List Step}
      {reports : List (Report Answer)} (h : Told budget w step report w')
      (hs : ToldAll budget w' steps reports) : ToldAll budget w (step :: steps) (report :: reports)

/-- The report on one step tells its deeds, and traces are kept after it. -/
theorem report_told (budget : ℕ) (step : Step) {w : Host} (hw : w.tracing = true) :
    Told budget w step (w.report budget (withRunner step.perform)).1
        (w.report budget (withRunner step.perform)).2 ∧
      (w.report budget (withRunner step.perform)).2.tracing = true := by
  have hdeeds : AccountedFrom Deed.Outer budget (withRunner step.perform budget) w.cleared :=
    step.hereditary accounted_hereditary (accounted_hereditary.within budget) budget w.cleared
  rw [World.report, Work.runFrom]
  cases he : withRunner step.perform budget w.cleared with
  | value a s | panic p s =>
    -- the journal was empty before the step, so all of it is of its deeds
    have hjournal : ∀ ds, Enacts budget (withRunner step.perform budget) w.cleared
        (withRunner step.perform budget w.cleared) ds →
        s.tracing = true ∧ s.journal.toList = Deed.entriesAll ds := by
      intro ds hds
      obtain ⟨s', hs', ht, hj⟩ := hds.journal (s := w.cleared) hw
      rw [he] at hs'
      obtain rfl := Option.some.inj hs'
      exact ⟨ht, hj⟩
    obtain ⟨ds, hds, houter⟩ := hdeeds (by rw [he]; nofun)
    obtain ⟨ht, hj⟩ := hjournal ds hds
    have hbracketed : Bracketed 0 s.journal.toList := by
      rw [hj]
      exact Deed.bracketed_outer houter
    exact ⟨⟨by rw [he]; rfl, by rw [he]; rfl,
      .inr ⟨⟨ds, hds, houter⟩, fun ds h => (hjournal ds h).2⟩, hbracketed⟩, ht⟩
  | exhausted => exact ⟨⟨by rw [he]; rfl, by rw [he]; rfl, .inl ⟨he, rfl⟩, .done⟩, hw⟩

/-- **The journal of a session is that of its deeds.** Where traces are kept, the report
on each step that ends tells what it has done: values it has logged, and the actions it
has run. A run opens and enters its span, and leaves it once, after all that was done
inside; also where it panicked, and whether the panic was contained further out or not.
It notes a failure right before that if and only if it has failed. A contained panic is
noted inside a run, after all runs that it has unwound. -/
theorem session_journal (budget : ℕ) (steps : List Step) {w : Host} (hw : w.tracing = true) :
    ToldAll budget w steps (session budget w steps) := by
  -- on the steps, for any host that keeps traces: each step leaves such a host
  induction steps generalizing w with
  | nil => exact .done
  | cons step steps ih =>
    obtain ⟨htold, ht⟩ := report_told budget step hw
    exact .step htold (ih ht)

/-- Runs an action that panics inside one that contains the panic. -/
def rescueSteps : List Step :=
  [.build "a" (.wrap .containPanic
      (.delay .work (.run (.delay .work (.prim .panicText [.text "boom"]))))),
    .run "a"]

/-- The inner run is left by the panic, before that is contained; the outer one fails. -/
theorem session_journal_rescue :
    (World.fresh true .values [] : Host).tracing = true ∧
    (session 5 (World.fresh true .values []) rescueSteps).map Report.journal =
      [[], Deed.entriesAll [.run [.contained [.run [] .unwound] (.text "boom")] .failed]] ∧
    ToldAll 5 (World.fresh true .values []) rescueSteps
      (session 5 (World.fresh true .values []) rescueSteps) :=
  ⟨rfl, rfl, session_journal 5 rescueSteps rfl⟩

end Session

end Deferral.Script
