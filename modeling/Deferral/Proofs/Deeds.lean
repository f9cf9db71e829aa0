import Deferral.Proofs.Containment
import Deferral.Proofs.Rounds
import Deferral.Proofs.Spans
import Deferral.Script.Plan

/-!
# Deeds

What the journal of a host is told of is a sequence of **deeds**: log entries, loops
that have ended, panics that were contained, and runs of actions. A run and a contained
panic have the deeds inside them, so deeds are trees, and the entries of a run stand in
brackets (`Deed.entries`).

`Enacts n m s e ds` says that `m`, which is what some work does under the budget `n`,
ends from `s` with `e` and did the deeds `ds` on the way. There is one rule for each way
of doing something that the journal is told of, and for sequences of work.

* `Enacts.journal`: while traces are kept, the journal grows by the entries of the deeds.
* `Deed.bracketed_outer`: the entries of deeds come in brackets (`Bracketed`).
* `Accounted.bind`, `accounted_iterate`, `accounted_containPanic`, `accounted_run`: work has
  deeds if the parts it is put together from have.
-/

namespace Deferral.Script

/-- How a run was left. -/
inductive Way where
  | returned
  | failed
  | unwound
  deriving DecidableEq

/-- Something that the journal is told of. -/
inductive Deed where
  /-- A value was logged. -/
  | logged (v : Value)
  /-- A loop ended, with a value or with a failure, after a number of rounds. -/
  | looped (finished : Bool) (rounds : ℕ)
  /-- A panic was contained, after what the action did that panicked. -/
  | contained (inner : List Deed) (p : Payload)
  /-- An action was run. -/
  | run (inner : List Deed) (way : Way)

/-- The note on how a run was left. -/
def Way.entries : Way → List Entry
  | failed => [.traced (.event .debug [("message", .text "effect evaluation failed")])]
  | returned | unwound => []

/-- The note that a loop has ended. -/
def loopNote (finished : Bool) (rounds : ℕ) : Trace :=
  .event .trace
    [("message", .text (if finished then "tail_rec_m loop finished" else "tail_rec_m loop failed")),
      ("iterations", .number rounds)]

mutual

/-- What the journal is told of a deed. A run opens its span and enters it, and leaves it
at the end, right after the note of a failure. -/
def Deed.entries : Deed → List Entry
  | .logged v => [.logged v]
  | .looped finished rounds => [.traced (loopNote finished rounds)]
  | .contained inner p => Deed.entriesAll inner ++ [.traced (Action.panicCaught p)]
  | .run inner way => .traced (.span .trace "io.run") :: .traced .enter ::
      (Deed.entriesAll inner ++ way.entries ++ [.traced .exit])
termination_by structural d => d

/-- What the journal is told of some deeds. -/
def Deed.entriesAll : List Deed → List Entry
  | [] => []
  | d :: ds => d.entries ++ Deed.entriesAll ds
termination_by structural ds => ds

end

/-- A deed of code outside of actions. What actions do by themselves is inside runs. -/
def Deed.Outer : Deed → Prop
  | .logged _ | .run _ _ => True
  | .looped _ _ | .contained _ _ => False

theorem Deed.entriesAll_append (ds ds' : List Deed) :
    Deed.entriesAll (ds ++ ds') = Deed.entriesAll ds ++ Deed.entriesAll ds' := by
  induction ds with
  | nil => rfl
  | cons d ds ih => rw [List.cons_append, entriesAll, entriesAll, ih, List.append_assoc]

theorem Deed.entriesAll_logged (vs : List Value) :
    Deed.entriesAll (vs.map .logged) = vs.map .logged := by
  induction vs with
  | nil => rfl
  | cons v vs ih => rw [List.map_cons, entriesAll, ih]; rfl

/-- Entries with `depth` spans open before them and none after. A span is entered as soon
as it is opened; spans are left one by one; a failure is noted right before a span is left,
and nowhere else; other events have a span around them. -/
inductive Bracketed : ℕ → List Entry → Prop where
  | done : Bracketed 0 []
  | logged {depth : ℕ} {es : List Entry} (v : Value) (h : Bracketed depth es) :
      Bracketed depth (.logged v :: es)
  | enter {depth : ℕ} {es : List Entry} (h : Bracketed (depth + 1) es) :
      Bracketed depth (.traced (.span .trace "io.run") :: .traced .enter :: es)
  | exit {depth : ℕ} {es : List Entry} (h : Bracketed depth es) :
      Bracketed (depth + 1) (.traced .exit :: es)
  | failed {depth : ℕ} {es : List Entry} (h : Bracketed depth es) : Bracketed (depth + 1)
      (.traced (.event .debug [("message", .text "effect evaluation failed")]) :: .traced .exit :: es)
  | event {depth : ℕ} {es : List Entry} {level : Level} {fields : List (String × FieldValue)}
      (hlevel : level ≠ .debug) (h : Bracketed (depth + 1) es) :
      Bracketed (depth + 1) (.traced (.event level fields) :: es)

/-- How a run is left. -/
theorem Way.bracketed (way : Way) {depth : ℕ} {es : List Entry} (h : Bracketed depth es) :
    Bracketed (depth + 1) (way.entries ++ .traced .exit :: es) := by
  cases way with
  | returned | unwound => exact .exit h
  | failed => exact .failed h

mutual

/-- Inside a span, deeds come in brackets. -/
theorem Deed.bracketed (d : Deed) {depth : ℕ} {es : List Entry} (h : Bracketed (depth + 1) es) :
    Bracketed (depth + 1) (d.entries ++ es) := by
  cases d with
  | logged v => exact .logged v h
  | looped finished rounds => exact .event (by simp) h
  | contained inner p =>
    rw [entries, List.append_assoc]
    exact Deed.bracketedAll inner (.event (by simp) h)
  | run inner way =>
    simp only [entries, List.cons_append, List.append_assoc, List.nil_append]
    exact .enter (Deed.bracketedAll inner (way.bracketed h))
termination_by structural d

/-- Inside a span, so do some deeds after each other. -/
theorem Deed.bracketedAll (ds : List Deed) {depth : ℕ} {es : List Entry}
    (h : Bracketed (depth + 1) es) : Bracketed (depth + 1) (Deed.entriesAll ds ++ es) := by
  cases ds with
  | nil => exact h
  | cons d ds =>
    rw [Deed.entriesAll, List.append_assoc]
    exact Deed.bracketed d (Deed.bracketedAll ds h)
termination_by structural ds

end

/-- Outside of spans, there are only log entries and runs. -/
theorem Deed.bracketed_outer {ds : List Deed} (hds : ∀ d ∈ ds, d.Outer) :
    Bracketed 0 (Deed.entriesAll ds) := by
  -- on the deeds; what comes after a run is outside of its span again
  induction ds with
  | nil => exact .done
  | cons d ds ih =>
    have hrest := ih fun d hd => hds d (List.mem_cons_of_mem _ hd)
    have houter := hds d List.mem_cons_self
    cases d with
    | logged v => exact .logged v hrest
    | run inner way =>
      simp only [entriesAll, entries, List.cons_append, List.append_assoc, List.nil_append]
      exact .enter (Deed.bracketedAll inner (way.bracketed hrest))
    | looped finished rounds => exact houter.elim
    | contained inner p => exact houter.elim

/-- What some work does under a budget. -/
abbrev Move (α : Type) : Type := Host → Ending Host α

/-- Under the budget `n`, the move ends from a state in this way, and these are its deeds. -/
inductive Enacts (n : ℕ) : {α : Type} → Move α → Host → Ending Host α → List Deed → Prop where
  /-- Nothing is done but to write values to the log. -/
  | plain {α : Type} {m : Move α} {s s' : Host} {e : Ending Host α} (vs : List Value)
      (h : m s = e) (hs : e.state? = some s')
      (hj : s'.journal.toList = s.journal.toList ++ vs.map .logged)
      (ht : s'.tracing = s.tracing) : Enacts n m s e (vs.map .logged)
  /-- One after the other. -/
  | bind {α β : Type} {w : Work Host α} {f : α → Work Host β} {s s' : Host} {a : α}
      {e : Ending Host β} {ds ds' : List Deed} (h : Enacts n (w n) s (.value a s') ds)
      (h' : Enacts n (f a n) s' e ds') : Enacts n ((w >>= f) n) s e (ds ++ ds')
  /-- A panic skips what comes after. -/
  | skip {α β : Type} {w : Work Host α} {f : α → Work Host β} {s s' : Host} {p : Payload}
      {ds : List Deed} (h : Enacts n (w n) s (.panic p s') ds) :
      Enacts n ((w >>= f) n) s (.panic p s') ds
  /-- A loop takes note of its end. -/
  | looped {ε β : Type} (r : Except ε β) (rounds : ℕ) (s : Host) :
      Enacts n ((emit (Action.loopEnded r rounds) : Work Host Unit) n) s
        (.value () (Tracing.note (Action.loopEnded r rounds) s)) [.looped r.isOk rounds]
  /-- An action under `containPanic` does not panic. -/
  | passed {ε α : Type} [OfFault ε] {a : Action Host ε α} {s s' : Host} {r : Except ε α}
      {ds : List Deed} (h : Enacts n (a.evaluate n) s (.value r s') ds) :
      Enacts n (a.containPanic.evaluate n) s (.value r s') ds
  /-- An action under `containPanic` panics. -/
  | contained {ε α : Type} [OfFault ε] {a : Action Host ε α} {s s' : Host} {p : Payload}
      {ds : List Deed} (h : Enacts n (a.evaluate n) s (.panic p s') ds) :
      Enacts n (a.containPanic.evaluate n) s
        (.value (.error (ofFault (.panicked p.message))) (Tracing.note (Action.panicCaught p) s'))
        [.contained ds p]
  /-- An action is run and gives a value. -/
  | returned {ε α : Type} {a : Action Host ε α} {s s' : Host} {x : α} {ds : List Deed}
      (h : Enacts n (a.evaluate n) (intoSpan s) (.value (.ok x) s') ds) :
      Enacts n (a.run n) s (.value (.ok x) (Tracing.note .exit s')) [.run ds .returned]
  /-- An action is run and fails. -/
  | failed {ε α : Type} {a : Action Host ε α} {s s' : Host} {x : ε} {ds : List Deed}
      (h : Enacts n (a.evaluate n) (intoSpan s) (.value (.error x) s') ds) :
      Enacts n (a.run n) s (.value (.error x) (Tracing.note .exit
        (Tracing.note (.message .debug "effect evaluation failed" []) s'))) [.run ds .failed]
  /-- An action is run and panics. -/
  | unwound {ε α : Type} {a : Action Host ε α} {s s' : Host} {p : Payload} {ds : List Deed}
      (h : Enacts n (a.evaluate n) (intoSpan s) (.panic p s') ds) :
      Enacts n (a.run n) s (.panic p (Tracing.note .exit s')) [.run ds .unwound]

section Note

variable {s s' : Host} {t : Trace}

/-- A note does not switch traces off, or on. -/
theorem tracing_note (t : Trace) (s : Host) : (Tracing.note t s).tracing = s.tracing := by
  change (if s.tracing then _ else s : Host).tracing = s.tracing
  split <;> rfl

/-- While traces are kept, a note is one entry more. -/
theorem journal_note (t : Trace) {s : Host} (ht : s.tracing = true) :
    (Tracing.note t s).journal.toList = s.journal.toList ++ [.traced t] := by
  change (if s.tracing then _ else s : Host).journal.toList = _
  rw [if_pos ht, Array.toList_push]

/-- A run that opens its span makes two entries before its action makes any. -/
theorem journal_intoSpan (ht : s.tracing = true) : (intoSpan s).journal.toList =
    s.journal.toList ++ [.traced (.span .trace "io.run"), .traced .enter] := by
  rw [intoSpan, journal_note _ ((tracing_note _ s).trans ht), journal_note _ ht, List.append_assoc]
  rfl

/-- A run that did `ds` from its opened span and then took the notes of its end. -/
theorem journal_run {ds : List Deed} {way : Way} (ht : s.tracing = true)
    (h : s'.journal.toList = (intoSpan s).journal.toList ++ Deed.entriesAll ds ++ way.entries ++
      [.traced .exit]) :
    s'.journal.toList = s.journal.toList ++ Deed.entriesAll [.run ds way] := by
  rw [h, journal_intoSpan ht]
  simp only [Deed.entriesAll, Deed.entries, List.append_nil, List.append_assoc, List.cons_append,
    List.nil_append]

end Note

namespace Enacts

variable {α : Type} {n : ℕ} {m : Move α} {s : Host} {e : Ending Host α} {ds : List Deed}

/-- The rules tell what the move does. -/
theorem eq (h : Enacts n m s e ds) : m s = e := by
  induction h with
  | plain vs h hs hj ht => exact h
  | bind h h' ih ih' => rw [Work.bind_run, ih]; exact ih'
  | skip h ih => rw [Work.bind_run, ih]
  | looped r rounds s => rfl
  | passed h ih => exact Action.evaluate_containPanic_pure ih
  | contained h ih => exact Action.evaluate_containPanic_panic ih
  | returned h ih | failed h ih | unwound h ih =>
    rw [Action.run_eq_outOfSpan, ih]
    rfl

/-- **The journal is told of the deeds**, in their order, while traces are kept. -/
theorem journal (h : Enacts n m s e ds) (ht : s.tracing = true) :
    ∃ s', e.state? = some s' ∧ s'.tracing = true ∧
      s'.journal.toList = s.journal.toList ++ Deed.entriesAll ds := by
  induction h with
  -- on the rules: each adds the entries of its deeds to what its parts have added
  | plain vs h hs hj hkeep => exact ⟨_, hs, hkeep.trans ht, by rw [hj, Deed.entriesAll_logged]⟩
  | bind h h' ih ih' =>
    obtain ⟨s₁, hs₁, ht₁, hj₁⟩ := ih ht
    obtain rfl := Option.some.inj hs₁
    obtain ⟨s₂, hs₂, ht₂, hj₂⟩ := ih' ht₁
    exact ⟨s₂, hs₂, ht₂, by rw [hj₂, hj₁, List.append_assoc, Deed.entriesAll_append]⟩
  | skip h ih => exact ih ht
  | looped r rounds s =>
    refine ⟨_, rfl, (tracing_note _ s).trans ht, ?_⟩
    rw [journal_note _ ht]
    cases r <;> rfl
  | passed h ih => exact ih ht
  | contained h ih =>
    obtain ⟨s₁, hs₁, ht₁, hj₁⟩ := ih ht
    obtain rfl := Option.some.inj hs₁
    refine ⟨_, rfl, (tracing_note _ _).trans ht₁, ?_⟩
    rw [journal_note _ ht₁, hj₁, List.append_assoc]
    simp only [Deed.entriesAll, Deed.entries, List.append_nil]
  | returned h ih | unwound h ih =>
    obtain ⟨s₁, hs₁, ht₁, hj₁⟩ := ih ((tracing_note _ _).trans ((tracing_note _ _).trans ht))
    obtain rfl := Option.some.inj hs₁
    refine ⟨_, rfl, (tracing_note _ _).trans ht₁, journal_run ht ?_⟩
    rw [journal_note _ ht₁, hj₁, Way.entries, List.append_nil]
  | failed h ih =>
    obtain ⟨s₁, hs₁, ht₁, hj₁⟩ := ih ((tracing_note _ _).trans ((tracing_note _ _).trans ht))
    obtain rfl := Option.some.inj hs₁
    have ht₂ := (tracing_note (.message .debug "effect evaluation failed" []) _).trans ht₁
    refine ⟨_, rfl, (tracing_note _ _).trans ht₂, journal_run ht ?_⟩
    rw [journal_note _ ht₂, journal_note _ ht₁, hj₁]
    rfl

end Enacts

/-- If the move ends from the state, it has deeds, all of them in `P`. -/
def AccountedFrom {α : Type} (P : Deed → Prop) (n : ℕ) (m : Move α) (s : Host) : Prop :=
  m s ≠ .exhausted → ∃ ds, Enacts n m s (m s) ds ∧ ∀ d ∈ ds, P d

/-- Wherever the work ends, it has deeds, all of them in `P`. -/
def Accounted {α : Type} (P : Deed → Prop) (w : Work Host α) : Prop :=
  ∀ n s, AccountedFrom P n (w n) s

/-- Any deed. -/
def Deed.Any (_ : Deed) : Prop := True

section Accounted

variable {ε τ α β : Type} {P Q : Deed → Prop}

theorem Accounted.mono {w : Work Host α} (h : Accounted P w) (hPQ : ∀ d, P d → Q d) :
    Accounted Q w := by
  intro n s hne
  obtain ⟨ds, hds, hP⟩ := h n s hne
  exact ⟨ds, hds, fun d hd => hPQ d (hP d hd)⟩

theorem Accounted.any {w : Work Host α} (h : Accounted P w) : Accounted Deed.Any w :=
  h.mono fun _ _ => trivial

/-- Work that only writes values to the log. -/
theorem accounted_of_plain {w : Work Host α} (vs : List Value) (hP : ∀ v ∈ vs, P (.logged v))
    (h : ∀ n s s', (w n s).state? = some s' → s'.tracing = s.tracing ∧
      s'.journal.toList = s.journal.toList ++ vs.map .logged) : Accounted P w := by
  intro n s hne
  obtain ⟨s', hs'⟩ : ∃ s', (w n s).state? = some s' := by
    cases hw : w n s with
    | value a s' => exact ⟨s', rfl⟩
    | panic p s' => exact ⟨s', rfl⟩
    | exhausted => exact absurd hw hne
  obtain ⟨ht, hj⟩ := h n s s' hs'
  refine ⟨vs.map .logged, .plain vs rfl hs' hj ht, ?_⟩
  simpa using hP

/-- Work that the journal is not told of. -/
theorem accounted_of_quiet {w : Work Host α}
    (h : ∀ n s s', (w n s).state? = some s' → s'.tracing = s.tracing ∧ s'.journal = s.journal) :
    Accounted P w := by
  refine accounted_of_plain [] (by simp) fun n s s' hs' => ⟨(h n s s' hs').1, ?_⟩
  rw [(h n s s' hs').2, List.map_nil, List.append_nil]

theorem accounted_pure (a : α) : Accounted P (pure a : Work Host α) :=
  accounted_of_quiet fun n s s' hs' => by cases hs'; exact ⟨rfl, rfl⟩

theorem accounted_panic (p : Payload) : Accounted P (Work.panic p : Work Host α) :=
  accounted_of_quiet fun n s s' hs' => by cases hs'; exact ⟨rfl, rfl⟩

theorem accounted_giveUp : Accounted P (Work.giveUp : Work Host α) :=
  fun _ _ hne => absurd rfl hne

/-- The deeds of a move that is known to end with `e`. -/
theorem AccountedFrom.enacts {m : Move α} {n : ℕ} {s : Host} {e : Ending Host α}
    (h : AccountedFrom P n m s) (he : m s = e) (hne : e ≠ .exhausted) :
    ∃ ds, Enacts n m s e ds ∧ ∀ d ∈ ds, P d := by
  subst he
  exact h hne

/-- One after the other: if the first part ends with a value, the second part has deeds
of its own. -/
theorem AccountedFrom.bind {w : Work Host α} {f : α → Work Host β} {n : ℕ} {s : Host}
    (hw : AccountedFrom P n (w n) s)
    (hf : ∀ a s', w n s = .value a s' → AccountedFrom P n (f a n) s') :
    AccountedFrom P n ((w >>= f) n) s := by
  intro hne
  cases h : w n s with
  | value a s' =>
    have hrun : (w >>= f) n s = f a n s' := by rw [Work.bind_run, h]
    rw [hrun] at hne ⊢
    obtain ⟨ds, hds, hP⟩ := hw.enacts h nofun
    obtain ⟨ds', hds', hP'⟩ := hf a s' h hne
    refine ⟨ds ++ ds', hds.bind hds', fun d hd => ?_⟩
    rcases List.mem_append.1 hd with hd | hd
    · exact hP d hd
    · exact hP' d hd
  | panic p s' =>
    obtain ⟨ds, hds, hP⟩ := hw.enacts h nofun
    rw [Work.bind_run, h]
    exact ⟨ds, hds.skip, hP⟩
  | exhausted => exact absurd (by rw [Work.bind_run, h]) hne

/-- The deeds of a sequence are those of its parts. -/
theorem Accounted.bind {w : Work Host α} {f : α → Work Host β} (hw : Accounted P w)
    (hf : ∀ a, Accounted P (f a)) : Accounted P (w >>= f) :=
  fun n s => (hw n s).bind fun a s' _ => hf a n s'

theorem Accounted.map {w : Work Host α} (hw : Accounted P w) (f : α → β) : Accounted P (f <$> w) := by
  rw [map_eq_pure_bind]
  exact hw.bind fun a => accounted_pure _

/-- A loop has the deeds of its rounds. -/
theorem accounted_iterate {round : τ → Work Host (Either τ α)} (h : ∀ t, Accounted P (round t))
    (seed : τ) : Accounted P (Work.iterate round seed) := by
  intro n s
  -- on the rounds that are left, whatever was done before; the budget of a round stays
  have key : ∀ more done t s, AccountedFrom P n (Work.iterateFrom round n more done t) s := by
    intro more
    induction more with
    | zero => exact fun done t s hne => absurd rfl hne
    | succ more ih =>
      intro done t s
      rw [Work.iterateFrom_succ]
      refine (h t n s).bind fun x s' _ => ?_
      cases x with
      | left t' => exact ih (done + 1) t' s'
      | right a => exact accounted_pure _ n s'
  exact key n 0 seed s

/-- A run is one deed, whatever its action does. -/
theorem accounted_run {a : Action Host ε α} (ha : Accounted Deed.Any a.evaluate) :
    Accounted Deed.Outer a.run := by
  intro n s hne
  rw [Action.run_eq_outOfSpan] at hne ⊢
  -- what the action did is inside of the deed, so nothing is asked of it
  rcases h : a.evaluate n (intoSpan s) with ⟨x | x, s'⟩ | ⟨p, s'⟩ | _
  · obtain ⟨ds, hds, -⟩ := (ha n (intoSpan s)).enacts h nofun
    exact ⟨_, hds.failed, by simp [Deed.Outer]⟩
  · obtain ⟨ds, hds, -⟩ := (ha n (intoSpan s)).enacts h nofun
    exact ⟨_, hds.returned, by simp [Deed.Outer]⟩
  · obtain ⟨ds, hds, -⟩ := (ha n (intoSpan s)).enacts h nofun
    exact ⟨_, hds.unwound, by simp [Deed.Outer]⟩
  · rw [h] at hne
    exact absurd rfl hne

/-- The deeds of a contained action: its own if it does not panic, and one around them if it
does. -/
theorem accounted_containPanic [OfFault ε] {a : Action Host ε α}
    (ha : Accounted Deed.Any a.evaluate) : Accounted Deed.Any a.containPanic.evaluate := by
  intro n s hne
  cases h : a.evaluate n s with
  | value r s' =>
    obtain ⟨ds, hds, -⟩ := (ha n s).enacts h nofun
    rw [Action.evaluate_containPanic_pure h]
    exact ⟨ds, hds.passed, fun _ _ => trivial⟩
  | panic p s' =>
    obtain ⟨ds, hds, -⟩ := (ha n s).enacts h nofun
    rw [Action.evaluate_containPanic_panic h]
    exact ⟨_, hds.contained, fun _ _ => trivial⟩
  | exhausted => exact absurd (Action.evaluate_containPanic_exhausted h) hne

theorem accounted_loopEnded (r : Except ε β) (rounds : ℕ) :
    Accounted Deed.Any (emit (Action.loopEnded r rounds) : Work Host Unit) :=
  fun _ s _ => ⟨_, .looped r rounds s, fun _ _ => trivial⟩

end Accounted

end Deferral.Script
