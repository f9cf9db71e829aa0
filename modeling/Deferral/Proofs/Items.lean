import Deferral.Merge.Action
import Deferral.Merge.Kind
import Deferral.Proofs.Containment
import Mathlib.Data.List.Forall2

/-!
# Merged actions, run

A list of actions merges into one action, which runs them from left to right and merges
their values as they come. A merge that panics does so between two actions, and then no
other is run; so does an action that panics itself, or fails.

`Executes fold items es r` says how the items of a list are run: up to the first that
stops, with what they enter on the tape, and how it ends. `fold` merges the values so far.

* `evaluate_foldl_merged`: the merged action is the first one, then the others, each
  merged onto the value before (`mergeOnto`).
* `Executes.mergeOnto`: items that are run one after the other do as `Executes` says, by
  induction on the list with one step for an item that goes on (`Executes.uncons`).
* `exists_executes`: every list of items is run up to some item, or to its end.
* `evaluate_mergeAll_eq`: to start from a unit that is neutral is to start from the first.
* `merged_items_run`: **merged items, run**, from the unit and from the first.
-/

namespace Deferral

variable {σ ω ε α β : Type}

section Fold

/-- Merges values onto `x`, from the left. -/
def foldFrom [Mergeable α] (x : α) (vs : List α) : Checked (Option α) := some <$> vs.foldlM merge x

/-- Merges values from the left, onto the first. -/
def foldFromFirst [Mergeable α] : List α → Checked (Option α)
  | [] => .ok none
  | v :: vs => foldFrom v vs

/-- The first value is merged before the rest. -/
theorem foldFrom_cons [Mergeable α] (x v : α) (vs : List α) :
    foldFrom x (v :: vs) = match merge x v with
      | .ok y => foldFrom y vs
      | .error p => .error p := by
  rw [foldFrom, List.foldlM_cons]
  cases merge x v <;> rfl

end Fold

/-- The item gives a value. -/
def Item.Gives (i : Item ω ε α) (v : α) : Prop := i.ending = .ok (.ok v)

/-- The item stops a merge: it fails, or panics, or the merge with its value panics. -/
inductive Item.Stops (merged : α → Checked β) (i : Item ω ε α) : Checked (Except ε α) → Prop where
  | failed {e : ε} (h : i.ending = .ok (.error e)) : Stops merged i (.ok (.error e))
  | panicked {p : Payload} (h : i.ending = .error p) : Stops merged i (.error p)
  | refused {v : α} {p : Payload} (h : i.Gives v) (hp : merged v = .error p) :
      Stops merged i (.error p)

/-- What the items enter on the tape. -/
def entriesOf (items : List (Item ω ε α)) : List ω := items.flatMap fun i => i.entry.toList

/-- The tape with some more entries. -/
def Tape.extend (s : Tape ω) (es : List ω) : Tape ω := ⟨s.entries ++ es.toArray⟩

/-- How items are run, whose values `fold` merges: what they enter on the tape, and how
it ends. All of them are run, or those up to the first that stops. -/
inductive Executes (fold : List α → Checked (Option α)) :
    List (Item ω ε α) → List ω → Checked (Except ε α) → Prop where
  | all {items : List (Item ω ε α)} {vs : List α} {acc : α}
      (hvs : List.Forall₂ Item.Gives items vs) (hacc : fold vs = .ok (some acc)) :
      Executes fold items (entriesOf items) (.ok (.ok acc))
  | upTo {done rest : List (Item ω ε α)} {i : Item ω ε α} {vs : List α} {acc : Option α}
      {r : Checked (Except ε α)} (hvs : List.Forall₂ Item.Gives done vs) (hacc : fold vs = .ok acc)
      (hi : i.Stops (fun v => fold (vs ++ [v])) r) :
      Executes fold (done ++ i :: rest) (entriesOf (done ++ [i])) r

namespace Executes

variable {fold : List α → Checked (Option α)} {i : Item ω ε α} {items : List (Item ω ε α)}
  {es : List ω} {r : Checked (Except ε α)} {v : α}

/-- Some values were merged before the end. -/
theorem exists_fold (h : Executes fold items es r) : ∃ vs acc, fold vs = .ok acc := by
  cases h with
  | all hvs hacc => exact ⟨_, _, hacc⟩
  | upTo hvs hacc hi => exact ⟨_, _, hacc⟩

/-- An item before the others that gives a value. -/
theorem cons (hi : i.Gives v) (h : Executes (fun vs => fold (v :: vs)) items es r) :
    Executes fold (i :: items) (i.entry.toList ++ es) r := by
  cases h with
  | all hvs hacc => exact .all (.cons hi hvs) hacc
  | upTo hvs hacc hstop => exact .upTo (.cons hi hvs) hacc hstop

/-- The first item gives a value and the others follow, or it stops. -/
theorem uncons (h : Executes fold (i :: items) es r) :
    (∃ v es', i.Gives v ∧ es = i.entry.toList ++ es' ∧
      Executes (fun vs => fold (v :: vs)) items es' r) ∨
    es = i.entry.toList ∧ i.Stops (fun v => fold [v]) r := by
  generalize hl : i :: items = l at h
  cases h with
  | all hvs hacc =>
    subst hl
    cases hvs with
    | cons hi hvs => exact .inl ⟨_, _, hi, rfl, .all hvs hacc⟩
  | @upTo done rest j vs acc r hvs hacc hstop =>
    cases hvs with
    -- the first item is the one that stops
    | nil =>
      obtain ⟨rfl, rfl⟩ := List.cons.inj hl
      exact .inr ⟨List.append_nil _, hstop⟩
    | cons hi hvs =>
      obtain ⟨rfl, rfl⟩ := List.cons.inj hl
      exact .inl ⟨_, _, hi, rfl, .upTo hvs hacc hstop⟩

end Executes

section Merged

variable [Mergeable α]

/-- What comes after an outcome: the other actions, and after each the merge of its value
onto the one before. -/
def mergeOnto : List (Action σ ε α) → Except ε α → Work σ (Except ε α)
  | [], r => return r
  | _ :: _, .error e => return .error e
  | a :: as, .ok x => do
    match ← a.evaluate with
    | .ok v =>
      let y ← Work.ofChecked (merge x v)
      mergeOnto as (.ok y)
    | .error e => return .error e

/-- After a failure nothing is run. -/
theorem mergeOnto_error (as : List (Action σ ε α)) (e : ε) :
    mergeOnto as (.error e) = return .error e := by cases as <;> rfl

/-- Merged actions are made from the left; making them does not panic. -/
theorem mergeFrom_action (a : Action σ ε α) (as : List (Action σ ε α)) :
    mergeFrom a as = .ok (as.foldl Action.merged a) := by
  induction as generalizing a with
  | nil => rfl
  | cons b as ih => exact ih (a.merged b)

/-- Two actions merged are the first one, and then the second merged onto it. -/
theorem evaluate_merged (a b : Action σ ε α) :
    (a.merged b).evaluate = a.evaluate >>= mergeOnto [b] := by
  rw [Action.merged, Action.evaluate_zipWith]
  refine bind_congr fun r => ?_
  cases r with
  | error e => rfl
  | ok x =>
    refine bind_congr fun r => ?_
    cases r with
    | error e => rfl
    | ok v => exact map_eq_pure_bind _ _

/-- **The merged action** is the first one, and then the others one by one. -/
theorem evaluate_foldl_merged (a : Action σ ε α) (as : List (Action σ ε α)) :
    (as.foldl Action.merged a).evaluate = a.evaluate >>= mergeOnto as := by
  -- on the list, for any action in front: the merge of the first two is in front of the rest
  induction as generalizing a with
  | nil => exact (bind_pure a.evaluate).symm
  | cons b as ih =>
    rw [List.foldl_cons, ih, evaluate_merged, bind_assoc]
    refine bind_congr fun r => ?_
    cases r with
    | error e => exact (pure_bind _ _).trans (mergeOnto_error as e)
    | ok x =>
      rw [mergeOnto, mergeOnto, bind_assoc]
      refine bind_congr fun r => ?_
      cases r with
      | error e => exact (pure_bind _ _).trans (mergeOnto_error as e)
      | ok v => rw [bind_assoc]; exact bind_congr fun y => pure_bind _ _

end Merged

section Run

variable {n : ℕ} {s : Tape ω}

@[simp] theorem Tape.extend_nil (s : Tape ω) : s.extend [] = s := by simp [Tape.extend]

@[simp] theorem Tape.extend_extend (s : Tape ω) (es es' : List ω) :
    (s.extend es).extend es' = s.extend (es ++ es') := by simp [Tape.extend]

/-- An item makes its entry first, and then ends as it does. -/
theorem Item.evaluate_action (i : Item ω ε α) (n : ℕ) (s : Tape ω) :
    i.action.evaluate n s = Work.ofChecked i.ending n (s.extend i.entry.toList) := by
  obtain ⟨entry, ending⟩ := i
  cases entry with
  | none => rw [Option.toList, Tape.extend_nil]; rfl
  | some e =>
    have hpush : s.extend [e] = ⟨s.entries.push e⟩ := by simp [Tape.extend]
    rw [Option.toList, hpush]
    rfl

/-- No run leaves a trace on a tape. -/
theorem Tape.run_eq (a : Action (Tape ω) ε α) : a.run = a.evaluate := by
  funext n s
  change a.evaluateNoted.always id n s = _
  simp only [Work.always, Action.evaluateNoted, Work.bind_run]
  rcases a.evaluate n s with ⟨e | x, s'⟩ | ⟨p, s'⟩ | _ <;> rfl

variable [Mergeable α]

/-- An item that gives a value lets the others go on from it. -/
theorem mergeOnto_gives {i : Item ω ε α} {x v y : α} (hi : i.Gives v) (hy : merge x v = .ok y)
    (as : List (Action (Tape ω) ε α)) :
    mergeOnto (i.action :: as) (.ok x) n s = mergeOnto as (.ok y) n (s.extend i.entry.toList) := by
  rw [mergeOnto, Work.bind_run, i.evaluate_action, hi]
  change (Work.ofChecked (merge x v) >>= fun y => mergeOnto as (.ok y)) n _ = _
  rw [hy]
  rfl

/-- An item that stops is the last one. -/
theorem mergeOnto_stops {i : Item ω ε α} {x : α} {r : Checked (Except ε α)}
    (hi : i.Stops (fun v => foldFrom x [v]) r) (as : List (Action (Tape ω) ε α)) :
    mergeOnto (i.action :: as) (.ok x) n s = Work.ofChecked r n (s.extend i.entry.toList) := by
  rw [mergeOnto, Work.bind_run, i.evaluate_action]
  cases hi with
  | failed h => rw [h]; rfl
  | panicked h => rw [h]; rfl
  | @refused v p h hp =>
    rw [h]
    change (Work.ofChecked (merge x v) >>= fun y => mergeOnto as (.ok y)) n _ = _
    -- the fold of one value panics only if this merge does
    rw [foldFrom_cons] at hp
    cases hm : merge x v with
    | ok y =>
      rw [hm] at hp
      cases hp
    | error q =>
      rw [hm] at hp
      cases hp
      rfl

/-- **Items after a value.** They do as `Executes` says. -/
theorem Executes.mergeOnto {items : List (Item ω ε α)} {x : α} {es : List ω}
    {r : Checked (Except ε α)} (h : Executes (foldFrom x) items es r) (n : ℕ) (s : Tape ω) :
    Deferral.mergeOnto (items.map Item.action) (.ok x) n s = Work.ofChecked r n (s.extend es) := by
  -- on the items, for any value before them and any tape: an item that goes on changes both
  induction items generalizing x es s with
  | nil =>
    generalize hl : ([] : List (Item ω ε α)) = l at h
    cases h with
    | all hvs hacc =>
      subst hl
      cases hvs
      cases hacc
      exact congrArg (Ending.value _) s.extend_nil.symm
    | upTo hvs hacc hi => exact absurd hl (by simp)
  | cons i items ih =>
    rw [List.map_cons]
    rcases h.uncons with ⟨v, es', hi, rfl, hrest⟩ | ⟨rfl, hi⟩
    · -- the merge with the value did not panic, or nothing could have come after it
      cases hm : merge x v with
      | ok y =>
        simp only [foldFrom_cons, hm] at hrest
        rw [mergeOnto_gives hi hm, ih hrest, Tape.extend_extend]
      | error p =>
        obtain ⟨vs, acc, hacc⟩ := hrest.exists_fold
        simp [foldFrom_cons, hm] at hacc
    · exact mergeOnto_stops hi _

/-- Items after a value are run up to one of them, or all. -/
theorem exists_executes (items : List (Item ω ε α)) (x : α) :
    ∃ es r, Executes (foldFrom x) items es r := by
  induction items generalizing x with
  -- nothing is left to run, so all items gave a value
  | nil => exact ⟨_, _, .all .nil rfl⟩
  | cons i items ih =>
    have hstop : ∀ r, i.Stops (fun v => foldFrom x [v]) r →
        ∃ es r, Executes (foldFrom x) (i :: items) es r :=
      fun r hi => ⟨_, _, .upTo .nil (rfl : foldFrom x [] = .ok (some x)) hi⟩
    rcases hi : i.ending with p | (e | v)
    · exact hstop _ (.panicked hi)
    · exact hstop _ (.failed hi)
    cases hm : merge x v with
    | error p => exact hstop _ (.refused hi (by rw [foldFrom_cons, hm]))
    | ok y =>
      obtain ⟨es, r, h⟩ := ih y
      have hrest : Executes (fun vs => foldFrom x (v :: vs)) items es r := by
        simpa only [foldFrom_cons, hm] using h
      exact ⟨_, _, .cons hi hrest⟩

/-- Items are run up to one of them, or all, if there is a first. -/
theorem exists_executes_first (i : Item ω ε α) (items : List (Item ω ε α)) :
    ∃ es r, Executes foldFromFirst (i :: items) es r := by
  have hstop : ∀ r, i.Stops (fun v => foldFromFirst [v]) r →
      ∃ es r, Executes foldFromFirst (i :: items) es r :=
    fun r hi => ⟨_, _, .upTo .nil rfl hi⟩
  rcases hi : i.ending with p | (e | v)
  · exact hstop _ (.panicked hi)
  · exact hstop _ (.failed hi)
  · obtain ⟨es, r, h⟩ := exists_executes items v
    exact ⟨_, _, .cons hi h⟩

end Run

/-- An outcome once panics are contained. -/
def panicsContained [OfFault ε] : Checked (Except ε α) → Checked (Except ε α)
  | .ok r => .ok r
  | .error p => .ok (.error (ofFault (.panicked p.message)))

/-- The action runs the items, whose values `fold` merges. -/
structure RunsItems [OfFault ε] (fold : List α → Checked (Option α)) (items : List (Item ω ε α))
    (a : Action (Tape ω) ε α) : Prop where
  exists_executes : ∃ es r, Executes fold items es r
  run_eq : ∀ es r, Executes fold items es r →
    ∀ n s, a.run n s = Work.ofChecked r n (s.extend es)
  containPanic_run_eq : ∀ es r, Executes fold items es r →
    ∀ n s, a.containPanic.run n s = Work.ofChecked (panicsContained r) n (s.extend es)

section Starts

variable [OfFault ε] {fold : List α → Checked (Option α)} {i : Item ω ε α}
  {items : List (Item ω ε α)} {a : Action (Tape ω) ε α}

/-- How the action is evaluated says how it is run, with panics contained or not. -/
theorem RunsItems.of_evaluate (hex : ∃ es r, Executes fold items es r)
    (ha : ∀ es r, Executes fold items es r →
      ∀ n s, a.evaluate n s = Work.ofChecked r n (s.extend es)) :
    RunsItems fold items a where
  exists_executes := hex
  run_eq es r h n s := by rw [Tape.run_eq, ha es r h]
  containPanic_run_eq es r h n s := by
    have ha := ha es r h n s
    rw [Tape.run_eq]
    cases r with
    | ok r => exact Action.evaluate_containPanic_pure ha
    | error p => exact Action.evaluate_containPanic_panic ha

/-- The actions of items, merged from the unit, run them; there need not be any. -/
theorem runsItems_mergeAll [Unital α] (items : List (Item ω ε α)) :
    ∃ a, mergeAll (items.map Item.action) = .ok a ∧ RunsItems (foldFrom Unital.unit) items a := by
  refine ⟨_, mergeFrom_action _ _, .of_evaluate (exists_executes items _) fun es r h n s => ?_⟩
  rw [evaluate_foldl_merged]
  exact h.mergeOnto n s

/-- The actions of items, merged from the first one, run them. The first value is not merged. -/
theorem runsItems_reduce [Mergeable α] (i : Item ω ε α) (items : List (Item ω ε α)) :
    ∃ a, reduce ((i :: items).map Item.action) = .ok (some a) ∧
      RunsItems foldFromFirst (i :: items) a := by
  refine ⟨(items.map Item.action).foldl Action.merged i.action, ?_,
    .of_evaluate (exists_executes_first i items) fun es r h n s => ?_⟩
  · rw [List.map_cons, reduce, mergeFrom_action]
    rfl
  rw [evaluate_foldl_merged, Work.bind_run, i.evaluate_action]
  rcases h.uncons with ⟨v, es', hi, rfl, hrest⟩ | ⟨rfl, hi⟩
  · -- the others go on from the value of the first item
    have hrest : Executes (foldFrom v) items es' r := hrest
    rw [hi, ← Tape.extend_extend]
    exact hrest.mergeOnto n _
  · cases hi with
    | failed he => rw [he]; exact congrFun (congrFun (mergeOnto_error _ _) n) _
    | panicked hp => rw [hp]; rfl
    | refused hv hp => cases hp

end Starts

section Unit

/-- The unit is neutral on the left. -/
def NeutralUnit (α : Type) [Unital α] : Prop := ∀ v : α, merge Unital.unit v = .ok v

/-- Values that merge by exact operations; sums and products of floating-point numbers are not. -/
def Kind.Exact : Kind → Prop
  | total k | product k => ∃ i, k = .int i
  | text | unit | option _ | array _ => True

/-- For exact operations the unit is neutral; no sum with zero, and no product with one, is out of
range. -/
theorem Kind.Exact.neutralUnit : ∀ {k : Kind}, k.Exact → NeutralUnit k.Elem
  | .text, _, (s : String) => congrArg Except.ok (String.empty_append (s := s))
  | .unit, _, () => rfl
  | .total _, ⟨i, rfl⟩, (⟨v⟩ : Total (Bounded i)) =>
    congrArg (Total.mk <$> ·) (Bounded.add_eq_ok_iff.2 (Int.zero_add v.val).symm)
  | .product _, ⟨i, rfl⟩, (⟨v⟩ : Product (Bounded i)) =>
    congrArg (Product.mk <$> ·) (Bounded.mul_eq_ok_iff.2 (Int.one_mul v.val).symm)
  | .option k, _, v => by
    have := k.unital
    cases v <;> rfl
  | .array k, _, (v : Array k.Elem) =>
    congrArg Except.ok (show #[] ++ v = v from Array.empty_append)

/-- To start from a unit that is neutral is to start from the first value. -/
theorem evaluate_mergeAll_eq [Unital α] (hunit : NeutralUnit α) (a : Action σ ε α)
    (as : List (Action σ ε α)) :
    ∃ x y, mergeAll (a :: as) = .ok x ∧ reduce (a :: as) = .ok (some y) ∧
      x.evaluate = y.evaluate := by
  refine ⟨_, as.foldl Action.merged a, mergeFrom_action _ _, ?_, ?_⟩
  · rw [reduce, mergeFrom_action]
    rfl
  rw [evaluate_foldl_merged, evaluate_foldl_merged]
  change mergeOnto (a :: as) (.ok Unital.unit) = _
  rw [mergeOnto]
  refine bind_congr fun r => ?_
  cases r with
  | error e => exact (mergeOnto_error as e).symm
  | ok v =>
    change (Work.ofChecked (merge Unital.unit v) >>= fun y => mergeOnto as (.ok y)) = _
    rw [hunit v]
    rfl

end Unit

/-- **Merged items, run.** They are run from left to right, up to the first that fails or panics or
whose value makes the merge panic, or else all of them. -/
theorem merged_items_run [OfFault ε] :
    (∀ (α : Type) [Unital α] (items : List (Item ω ε α)),
      ∃ a, mergeAll (items.map Item.action) = .ok a ∧
        RunsItems (foldFrom Unital.unit) items a) ∧
    (∀ (α : Type) [Mergeable α], reduce ([] : List (Action (Tape ω) ε α)) = .ok none ∧
      ∀ (i : Item ω ε α) (items : List (Item ω ε α)),
        ∃ a, reduce ((i :: items).map Item.action) = .ok (some a) ∧
          RunsItems foldFromFirst (i :: items) a) ∧
    ∀ (k : Kind), k.Exact → ∀ (i : Item ω ε k.Elem) (items : List (Item ω ε k.Elem)),
      ∃ a b, mergeAll ((i :: items).map Item.action) = .ok a ∧
        reduce ((i :: items).map Item.action) = .ok (some b) ∧
        a.run = b.run ∧ a.containPanic.run = b.containPanic.run := by
  refine ⟨fun α _ items => runsItems_mergeAll items, fun α _ => ⟨rfl, runsItems_reduce⟩, ?_⟩
  intro k hk i items
  obtain ⟨a, b, ha, hb, hab⟩ := evaluate_mergeAll_eq hk.neutralUnit i.action (items.map Item.action)
  have hcontained : a.containPanic.evaluate = b.containPanic.evaluate := by
    simp only [Action.containPanic, Action.evaluate_ofFallible, hab]
  exact ⟨a, b, ha, hb, by simp only [Tape.run_eq, hab], by simp only [Tape.run_eq, hcontained]⟩

/-- Totals of signed integers of eight bits. -/
def byteTotal : Kind := .total (.int ⟨true, .w8⟩)

/-- An item that makes an entry and gives a hundred. -/
def hundred (entry : ℕ) : Item ℕ Fault byteTotal.Elem where
  entry := some entry
  ending := .ok (.ok (Total.mk (Bounded.mk 100 (by decide) (by decide))))

/-- Two hundreds are too much, so of three items the last is not run. -/
theorem merged_items_run_hundreds :
    byteTotal.Exact ∧
    ∃ a b, mergeAll ([hundred 1, hundred 2, hundred 3].map Item.action) = .ok a ∧
      reduce ([hundred 1, hundred 2, hundred 3].map Item.action) = .ok (some b) ∧
      b.run 0 ⟨#[]⟩ = .panic (.text "attempt to add with overflow") ⟨#[1, 2]⟩ ∧
      a.run = b.run ∧
      a.containPanic.run 0 ⟨#[]⟩ =
        .value (.error (.panicked "attempt to add with overflow")) ⟨#[1, 2]⟩ ∧
      a.containPanic.run = b.containPanic.run := by
  have hk : byteTotal.Exact := ⟨_, rfl⟩
  obtain ⟨hall, -, hagree⟩ := merged_items_run (ω := ℕ) (ε := Fault)
  obtain ⟨a, b, ha, hb, hrun, hcontained⟩ := hagree byteTotal hk (hundred 1) [hundred 2, hundred 3]
  obtain ⟨_, ha', hruns⟩ := hall byteTotal.Elem [hundred 1, hundred 2, hundred 3]
  cases ha.symm.trans ha'
  -- the first two are run, and the merge of the second panics
  have hex : Executes (foldFrom Unital.unit) [hundred 1, hundred 2, hundred 3] [1, 2]
      (.error (.text "attempt to add with overflow")) :=
    .upTo (.cons rfl .nil : List.Forall₂ Item.Gives [hundred 1] _) rfl (.refused rfl rfl)
  refine ⟨hk, a, b, ha, hb, ?_, hrun, hruns.containPanic_run_eq _ _ hex 0 _, hcontained⟩
  rw [← hrun]
  exact hruns.run_eq _ _ hex 0 _

end Deferral
