import Deferral.Proofs.Containment
import Deferral.Proofs.Rounds
import Deferral.Proofs.Tame

/-!
# What work spends

An account watches one tag. An entry of the tag is an expense; an entry of the tag of one step of
a loop, if there is such a step, is an income. Code, values and plans may be the cause of as many
expenses as they have places that log the charged tag outside of steps (`Account.debit`). What
a world has spent (`Account.spent`) includes what the plans in its slots may spend.

`Spends` says how much some work spends at most, and what its value may be the cause of: what a
function in place or a plan spends, it spends later, so it is left over and not spent by the work
that gives it.

* `Spends.bind`: **what the first part leaves is spent by the second.**
* `spends_iterate`: a loop whose rounds spend nothing.
* `debit_le_of_covers_inside`: what is charged in a step is paid by the step.
-/

namespace Deferral.Script

variable {α β : Type}

/-- A tag whose entries are charged, and the tag of a step whose entries pay. -/
structure Account where
  charged : String
  paying : Option String

namespace Account

/-- The number of places that log the charged tag and are in no step of a loop. -/
def debit (c : Account) (ps : List Place) : ℕ :=
  ps.countP fun p => p.tag = c.charged ∧ p.steps = []

/-- Where the charged tag is inside of a step of a loop, the innermost one pays. -/
def Covers (c : Account) (ps : List Place) : Prop :=
  ∀ p ∈ ps, p.tag = c.charged → p.steps = [] ∨ p.steps.getLast? = c.paying

/-- How often the paying tag is in the journal. -/
def credit (c : Account) (w : Host) : ℕ :=
  match c.paying with
  | some tag => w.logged tag
  | none => 0

/-- What was spent, and what the plans in slots may spend, less what was paid. -/
def spent (c : Account) (w : Host) : ℤ :=
  w.logged c.charged + c.debit w.places - c.credit w

/-- A tame world in whose slots steps pay where they have to. -/
structure Fair (c : Account) (w : Host) : Prop where
  tame : w.Tame
  covers : c.Covers w.places

/-- Work that ended so from `w` has spent `p` at most, with what is left in its value. -/
def Bounds (c : Account) (p : ℕ) (R : ℕ → α → Prop) (w : Host) : Ending Host α → Prop
  | .value a w' => c.Fair w' ∧ ∃ q, R q a ∧ c.spent w' + q ≤ c.spent w + p
  | .panic _ w' => c.Fair w' ∧ c.spent w' ≤ c.spent w + p
  | .exhausted => True

/-- The work spends `p` at most, and its value is the cause of what `R` says. -/
def Spends (c : Account) (p : ℕ) (R : ℕ → α → Prop) (w : Work Host α) : Prop :=
  ∀ n s, c.Fair s → c.Bounds p R s (w n s)

/-- An outcome with a value as in `R`; no function in a failure logs. -/
def Ends (R : ℕ → α → Prop) (q : ℕ) : Except Value α → Prop
  | .ok a => R q a
  | .error e => e.Quiet

/-- A sided value with a right one as in `R`; no function in a left one logs. -/
def Sides (R : ℕ → α → Prop) (q : ℕ) : Either Value α → Prop
  | .left v => v.Quiet
  | .right a => R q a

section Places

variable {c : Account} {ps qs : List Place}

theorem debit_append : c.debit (ps ++ qs) = c.debit ps + c.debit qs := List.countP_append

theorem covers_append : c.Covers (ps ++ qs) ↔ c.Covers ps ∧ c.Covers qs := by
  simp only [Covers, List.mem_append, or_imp, forall_and]

theorem covers_nil : c.Covers [] := by intro p hp; cases hp

theorem debit_singleton (tag : String) :
    c.debit [⟨tag, []⟩] = if tag = c.charged then 1 else 0 := by
  simp [debit, List.countP_cons]

/-- No tag is at two places, so the charged one is at one place at most. -/
theorem debit_le_one (h : (ps.map Place.tag).Nodup) : c.debit ps ≤ 1 := by
  have hcount : (ps.map Place.tag).count c.charged ≤ 1 := List.nodup_iff_count_le_one.1 h _
  have hle : c.debit ps ≤ (ps.map Place.tag).count c.charged := by
    rw [List.count, List.countP_map]
    refine List.countP_mono_left fun p _ hp => ?_
    simp only [decide_eq_true_eq] at hp
    simpa using hp.1
  omega

/-- What is charged in a step of a loop is paid by the step. -/
theorem debit_le_of_covers_inside {tag : String} (h : c.Covers (ps.map (Place.inside (some tag))))
    (hnodup : (ps.map Place.tag).Nodup) :
    c.Covers ps ∧ (c.debit ps = 0 ∨ c.debit ps ≤ 1 ∧ c.paying = some tag) := by
  have hinside : ∀ p ∈ ps, p.tag = c.charged → (tag :: p.steps).getLast? = c.paying := by
    intro p hp htag
    have := h (p.inside (some tag)) (List.mem_map_of_mem hp) htag
    simpa [Place.inside] using this
  constructor
  · intro p hp htag
    have hlast := hinside p hp htag
    cases hsteps : p.steps with
    | nil => exact .inl rfl
    | cons t ts =>
      rw [hsteps, List.getLast?_cons_cons] at hlast
      exact .inr hlast
  · by_cases hzero : c.debit ps = 0
    · exact .inl hzero
    · refine .inr ⟨debit_le_one hnodup, ?_⟩
      -- some place in the step is charged, and the innermost step around it is this one
      obtain ⟨p, hp, hcharged⟩ := List.countP_pos_iff.1 (Nat.pos_of_ne_zero hzero)
      simp only [decide_eq_true_eq] at hcharged
      have hlast := hinside p hp hcharged.1
      rw [hcharged.2] at hlast
      exact hlast.symm

end Places

section Worlds

variable {c : Account} {w w' : Host}

theorem logged_log (tag s : String) :
    (w.log (.text s)).logged tag = w.logged tag + if s = tag then 1 else 0 := by
  simp [World.logged, World.log, List.countP_append, List.countP_cons]

theorem Fair.log {w : Host} (h : c.Fair w) (v : Value) : c.Fair (w.log v) :=
  ⟨⟨h.tame.cells, h.tame.slots⟩, h.covers⟩

/-- An entry of the charged tag is an expense, one of the paying tag an income. -/
theorem spent_log (w : Host) (tag : String) : c.spent (w.log (.text tag)) =
    c.spent w + (if tag = c.charged then 1 else 0) - if c.paying = some tag then 1 else 0 := by
  have hcredit : c.credit (w.log (.text tag)) =
      c.credit w + if c.paying = some tag then 1 else 0 := by
    unfold credit
    split
    · next t ht => simp only [logged_log, ht, Option.some.injEq, eq_comm]
    · next hnone => simp [hnone]
  have hplaces : (w.log (.text tag)).places = w.places := rfl
  unfold spent
  rw [logged_log, hcredit, hplaces]
  push_cast
  split <;> split <;> omega

theorem logged_note (t : Trace) (tag : String) :
    (Tracing.note t w : Host).logged tag = w.logged tag := by
  obtain ⟨journal, tracing, channel, cells, slots, input, printed⟩ := w
  cases tracing with
  | false => rfl
  | true => simp [World.logged, Tracing.note, List.countP_append]

/-- A world that has the same cells, slots and log entries has spent the same. -/
structure Unspent (w w' : Host) : Prop where
  cells : w'.cells = w.cells
  slots : w'.slots = w.slots
  logged (tag : String) : w'.logged tag = w.logged tag

theorem Unspent.fair (h : Unspent w w') (hw : c.Fair w) : c.Fair w' := by
  refine ⟨⟨?_, ?_⟩, ?_⟩
  · rw [h.cells]; exact hw.tame.cells
  · rw [h.slots]; exact hw.tame.slots
  · unfold World.places; rw [h.slots]; exact hw.covers

/-- What has no entry and no place costs nothing. -/
theorem Unspent.spent (h : Unspent w w') : c.spent w' = c.spent w := by
  have hcredit : c.credit w' = c.credit w := by
    unfold credit
    split
    · exact h.logged _
    · rfl
  unfold Account.spent World.places
  rw [hcredit, h.logged, h.slots]

theorem unspent_note (t : Trace) : Unspent w (Tracing.note t w) := by
  refine ⟨?_, ?_, logged_note t⟩ <;> (simp only [Tracing.note]; split <;> rfl)

end Worlds

section Rules

variable {c : Account} {p p' q d : ℕ} {R : ℕ → α → Prop} {S : ℕ → β → Prop} {s s' : Host}

/-- Bounds from a later state hold from an earlier one, if what was spent in between is allowed for.
-/
theorem Bounds.from {e : Ending Host α} (h : c.Bounds p R s' e)
    (hle : c.spent s' + p ≤ c.spent s + p') : c.Bounds p' R s e := by
  cases e with
  | value a s₁ =>
    obtain ⟨hfair, q, hq, hspent⟩ := h
    exact ⟨hfair, q, hq, by omega⟩
  | panic e s₁ =>
    obtain ⟨hfair, hspent⟩ := h
    exact ⟨hfair, by omega⟩
  | exhausted => trivial

theorem Spends.le {w : Work Host α} (h : c.Spends p R w) (hle : p ≤ p') : c.Spends p' R w :=
  fun n s hs => (h n s hs).from (by omega)

theorem spends_pure {a : α} (h : R p a) : c.Spends p R (pure a) :=
  fun _ _ hs => ⟨hs, p, h, le_rfl⟩

theorem spends_panic (e : Payload) : c.Spends p R (Work.panic e) :=
  fun _ _ hs => ⟨hs, by omega⟩

theorem spends_malformed : c.Spends p R malformed := spends_panic _

theorem spends_giveUp : c.Spends p R Work.giveUp := fun _ _ _ => trivial

/-- **What the first part leaves is spent by the second.** -/
theorem Spends.bind {w : Work Host α} {f : α → Work Host β} (hw : c.Spends p R w)
    (hf : ∀ q a, R q a → c.Spends (q + d) S (f a)) : c.Spends (p + d) S (w >>= f) := by
  intro n s hs
  have hbounds := hw n s hs
  rw [Work.bind_run]
  cases hrun : w n s with
  | value a s' =>
    rw [hrun] at hbounds
    obtain ⟨hs', q, hq, hle⟩ := hbounds
    exact (hf q a hq n s' hs').from (by omega)
  | panic e s' =>
    rw [hrun] at hbounds
    exact ⟨hbounds.1, by have := hbounds.2; omega⟩
  | exhausted => trivial

/-- The parts of code, one after the other. -/
theorem Spends.bind_places {ps qs : List Place} {w : Work Host α} {f : α → Work Host β}
    (hc : c.Covers (ps ++ qs)) (hw : c.Covers ps → c.Spends (c.debit ps) R w)
    (hf : c.Covers qs → ∀ q a, R q a → c.Spends (c.debit qs + q) S (f a)) :
    c.Spends (c.debit (ps ++ qs)) S (w >>= f) := by
  obtain ⟨hps, hqs⟩ := covers_append.1 hc
  rw [debit_append]
  exact (hw hps).bind fun q a hq => (hf hqs q a hq).le (Nat.add_comm _ q).le

/-- A part that spends nothing, and whose value is of no concern. -/
theorem Spends.bind_zero {w : Work Host α} {f : α → Work Host β}
    (hw : c.Spends 0 (fun _ _ => True) w) (hf : ∀ a, c.Spends p S (f a)) : c.Spends p S (w >>= f) :=
  (hw.bind fun q a _ => (hf a).le (Nat.le_add_left p q)).le (Nat.zero_add p).le

theorem Spends.map {w : Work Host α} (hw : c.Spends p R w) {f : α → β}
    (hf : ∀ q a, R q a → S q (f a)) : c.Spends p S (f <$> w) := by
  rw [map_eq_pure_bind]
  exact hw.bind (d := 0) fun q a hq => spends_pure (hf q a hq)

theorem Spends.imp {w : Work Host α} {T : ℕ → α → Prop} (hw : c.Spends p R w)
    (h : ∀ q a, R q a → T q a) : c.Spends p T w := by
  have hmap := hw.map (f := id) h
  rwa [id_map] at hmap

/-- Work that leaves what matters as it is. -/
theorem spends_unspent {w : Work Host α} (h : ∀ n s, ∃ a s', w n s = .value a s' ∧ Unspent s s') :
    c.Spends 0 (fun _ _ => True) w := by
  intro n s hs
  obtain ⟨a, s', hw, hsame⟩ := h n s
  rw [hw]
  exact ⟨hsame.fair hs, 0, trivial, by rw [hsame.spent]⟩

theorem spends_emit (t : Trace) : c.Spends 0 (fun _ _ => True) (emit t : Work Host Unit) :=
  spends_unspent fun _ _ => ⟨(), _, rfl, unspent_note t⟩

/-- An update that keeps the world fair spends what it adds. -/
theorem spends_modify {f : Host → Host}
    (hf : ∀ s, c.Fair s → c.Fair (f s) ∧ c.spent (f s) ≤ c.spent s + p) :
    c.Spends p (fun _ _ => True) (modify f : Work Host PUnit) := by
  intro n s hs
  obtain ⟨hfair, hle⟩ := hf s hs
  refine ⟨hfair, 0, trivial, ?_⟩
  change c.spent (f s) + ((0 : ℕ) : ℤ) ≤ _
  omega

theorem spends_get : c.Spends 0 (fun _ s => c.Fair s) (get : Work Host Host) :=
  fun _ _ hs => ⟨hs, 0, hs, le_rfl⟩

/-- An entry of the charged tag is one expense, which has its place. -/
theorem spends_log (tag : String) : c.Spends (c.debit [⟨tag, []⟩]) (fun _ _ => True)
    (modify (World.log (.text tag)) : Work Host PUnit) := by
  refine spends_modify fun s hs => ⟨hs.log _, ?_⟩
  rw [spent_log, debit_singleton]
  split <;> split <;> simp

/-- **A step of a loop pays for what is in it** before it does anything else. -/
theorem Spends.after_log {w : Work Host α} {tag : String} (hw : c.Spends p R w)
    (hp : c.debit [⟨tag, []⟩] + p = 0 ∨ c.debit [⟨tag, []⟩] + p ≤ 1 ∧ c.paying = some tag) :
    c.Spends 0 R ((modify (World.log (.text tag)) : Work Host PUnit) >>= fun _ => w) := by
  intro n s hs
  refine Bounds.from (hw n (s.log (.text tag)) (hs.log _)) ?_
  rw [spent_log]
  rw [debit_singleton] at hp
  -- if the step logs the charged tag itself, that is its one place, and the tag that pays
  by_cases htag : tag = c.charged
  · rw [if_pos htag] at hp ⊢
    obtain ⟨hp, hpaying⟩ := hp.resolve_left (by omega)
    rw [if_pos hpaying]
    omega
  · rw [if_neg htag] at hp ⊢
    by_cases hpaying : c.paying = some tag
    · rw [if_pos hpaying]
      omega
    · have hp := hp.resolve_right fun h => hpaying h.2
      rw [if_neg hpaying]
      omega

/-- Contained panics spend what the action spends. -/
theorem spends_containPanic {a : Action Host Value α} (ha : c.Spends p (Ends R) a.evaluate) :
    c.Spends p (Ends R) a.containPanic.evaluate := by
  intro n s hs
  have hbounds := ha n s hs
  cases hrun : a.evaluate n s with
  | value r s' =>
    rw [hrun] at hbounds
    rw [Action.evaluate_containPanic_pure hrun]
    exact hbounds
  | panic e s' =>
    rw [hrun] at hbounds
    obtain ⟨hs', hle⟩ := hbounds
    have hnote := unspent_note (w := s') (Action.panicCaught e)
    rw [Action.evaluate_containPanic_panic hrun]
    exact ⟨hnote.fair hs', 0, .fault _, by rw [hnote.spent]; omega⟩
  | exhausted =>
    rw [Action.evaluate_containPanic_exhausted hrun]
    trivial

/-- **A loop whose rounds spend nothing spends nothing.** What its last round leaves is left. -/
theorem spends_iterate {round : Value → Work Host (Either Value α)}
    (h : ∀ t, t.Quiet → c.Spends 0 (Sides R) (round t)) {seed : Value} (hseed : seed.Quiet) :
    c.Spends 0 (fun q x => R q x.1) (Work.iterate round seed) := by
  intro n s hs
  -- on the rounds that are allowed, for any seed and any number of rounds that were taken
  have key : ∀ more done t s, t.Quiet → c.Fair s →
      c.Bounds 0 (fun q x => R q x.1) s (Work.iterateFrom round n more done t s) := by
    intro more
    induction more with
    | zero => intro done t s _ _; trivial
    | succ more ih =>
      intro done t s ht hs
      have hround := h t ht n s hs
      rw [Work.iterateFrom]
      cases hrun : round t n s with
      | value e s' =>
        rw [hrun] at hround
        obtain ⟨hs', q, hq, hle⟩ := hround
        cases e with
        | left t' => exact (ih (done + 1) t' s' hq hs').from (by omega)
        | right a => exact ⟨hs', q, hq, hle⟩
      | panic e s' =>
        rw [hrun] at hround
        exact hround
      | exhausted => trivial
  exact key n 0 seed s hseed hs

end Rules

end Account
end Deferral.Script
