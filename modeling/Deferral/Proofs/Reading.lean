import Deferral.Action.Combinators
import Deferral.Proofs.Building
import Deferral.Proofs.Layers
import Deferral.Proofs.Lines
import Deferral.Proofs.Rounds

/-!
# Reading the input line by line

`getLine` takes the next line of the input, and fails if it is no text; the line is taken in both
cases. So a loop that observes one read after the other sees one outcome for each line, in order,
whatever the bytes are. The lines left are the measure on which it ends.

`World.ahead w ps` is the world `w` with the lines `ps` ahead of it: all that reading changes.

* `evaluate_getLine_cons`: a read takes the first line ahead, and answers what `lineOutcome` says.
* `passes_collect`: what the loop has collected after a number of rounds, and what is ahead of it
  then. The induction is on that number; each round finds at least one line ahead.
* `collectsLines_outcomes`: the loop collects the outcomes of all lines, and ends.
* `reading_collects_lines`: **reading line by line**, and what reads nothing at all.
-/

namespace Deferral

open Script (World Host Plan Runner Task Expr Step)
open Text (lines)

variable {κ ε : Type}

/-- What reading a line answers: its text, or a failure of other origin if it is none. -/
structure ReadsAs [OfFault ε] (line : List UInt8) (r : Except ε String) : Prop where
  text : ∀ s, bytesOf s = line → r = .ok s
  failure : (∀ s, bytesOf s ≠ line) → ∃ f : Fault, f.kind = "other" ∧ r = .error (ofFault f)

/-- The outcome of reading a line. -/
def lineOutcome [OfFault ε] (line : List UInt8) : Except ε String :=
  match Text.ofBytes? line with
  | some s => .ok s
  | none =>
    .error (ofFault (.other (.device "InvalidData" "stream did not contain valid UTF-8")))

/-- The world with these lines ahead. -/
def Script.World.ahead (w : World κ) (ps : List (List UInt8)) : World κ :=
  { w with input := ps.flatten }

/-- The outcomes of some reads. -/
abbrev Collected (ε : Type) : Type := List (Except ε String)

/-- The outcomes of reading all lines of the input. -/
def outcomes [OfFault ε] (w : World κ) : Collected ε := (lines w.input).map lineOutcome

/-- Adds an outcome to those before it. The empty text ends the loop. -/
def withOutcome (rs : Collected ε) : Except ε String → Either (Collected ε) (Collected ε)
  | .ok "" => .right rs
  | r => .left (rs ++ [r])

/-- Reads a line and adds its outcome to those before it. -/
def collect [OfFault ε] (rs : Collected ε) :
    Work (World κ) (Action (World κ) ε (Either (Collected ε) (Collected ε))) :=
  return Action.getLine.observe.map fun r => return withOutcome rs r

theorem withOutcome_of_ne {rs : Collected ε} {r : Except ε String} (h : r ≠ .ok "") :
    withOutcome rs r = .left (rs ++ [r]) := by
  unfold withOutcome
  split
  · exact absurd rfl h
  · rfl

section Outcomes

variable [OfFault ε] {p : List UInt8}

theorem lineOutcome_eq_ok_iff {s : String} :
    (lineOutcome p : Except ε String) = .ok s ↔ bytesOf s = p := by
  rw [← Text.ofBytes?_eq_some_iff, lineOutcome]
  cases Text.ofBytes? p <;> simp

theorem reads_lineOutcome (p : List UInt8) : ReadsAs p (lineOutcome p : Except ε String) where
  text _ := lineOutcome_eq_ok_iff.2
  failure hno := by
    have hnone : Text.ofBytes? p = none :=
      Option.eq_none_iff_forall_ne_some.2 fun s hs => hno s (Text.ofBytes?_eq_some_iff.1 hs)
    exact ⟨_, rfl, by rw [lineOutcome, hnone]⟩

/-- All reads give texts if these are what the lines hold. -/
theorem outcomes_eq_map_ok_iff {w : World κ} {ss : List String} :
    (outcomes w : Collected ε) = ss.map .ok ↔ lines w.input = ss.map bytesOf := by
  rw [outcomes, ← List.forall₂_eq_eq_eq, ← List.forall₂_eq_eq_eq, List.forall₂_map_left_iff,
    List.forall₂_map_right_iff, List.forall₂_map_right_iff]
  simp only [lineOutcome_eq_ok_iff, eq_comm]

end Outcomes

section Reads

variable [OfFault ε] {n : ℕ} {w : World κ} {p : List UInt8} {ps : List (List UInt8)}

/-- A read takes what is before the next cut, be it a text or not. -/
theorem evaluate_getLine (n : ℕ) (w : World κ) :
    (Action.getLine : Action (World κ) ε String).evaluate n w =
      .value (lineOutcome (Text.splitLine w.input).1)
        { w with input := (Text.splitLine w.input).2 } := by
  change Ending.value (w.takeLine.1.mapError ofFault) w.takeLine.2 = _
  rw [World.takeLine, lineOutcome]
  cases Text.ofBytes? (Text.splitLine w.input).1 <;> rfl

/-- A read takes the first line, be it a text or not. -/
theorem evaluate_getLine_cons (h : lines w.input = p :: ps) :
    (Action.getLine : Action (World κ) ε String).evaluate n w =
      .value (lineOutcome p) (w.ahead ps) := by
  rw [evaluate_getLine, Text.splitLine_of_lines h]
  rfl

/-- At the end of the input a read takes nothing. -/
theorem evaluate_getLine_nil :
    (Action.getLine : Action (World κ) ε String).evaluate n (w.ahead []) =
      .value (.ok "") (w.ahead []) := by
  rw [evaluate_getLine]
  exact congrArg (fun r => Ending.value r _) (lineOutcome_eq_ok_iff.2 rfl)

/-- A round adds what its read has answered, also a failure, as that is observed. -/
theorem round_collect_eq {r : Except ε String} {w' : World κ} (rs : Collected ε)
    (h : (Action.getLine : Action (World κ) ε String).evaluate n w = .value r w') :
    Action.round collect rs n w = .value (.ok (withOutcome rs r)) w' := by
  rw [Action.round, collect, pure_bind, Action.evaluate_map, Action.evaluate_observe, bind_assoc,
    Work.bind_value h]
  rfl

/-- A round with a line ahead adds what the line reads as. -/
theorem round_collect_cons (rs : Collected ε) (h : lines w.input = p :: ps) :
    Action.round collect rs n w = .value (.ok (.left (rs ++ [lineOutcome p]))) (w.ahead ps) := by
  -- a line is never empty, so it does not read as the end of the input
  have hp : p ≠ [] := List.ne_nil_of_mem_splitBy (h ▸ List.mem_cons_self)
  rw [round_collect_eq rs (evaluate_getLine_cons h),
    withOutcome_of_ne fun hend => hp (lineOutcome_eq_ok_iff.1 hend).symm]

theorem round_collect_nil (rs : Collected ε) :
    Action.round collect rs n (w.ahead []) = .value (.ok (.right rs)) (w.ahead []) :=
  round_collect_eq rs evaluate_getLine_nil

theorem ahead_lines (w : World κ) : w.ahead (lines w.input) = w := by
  rw [World.ahead, Text.flatten_lines]

/-- What the loop has collected after a number of rounds, and what is ahead of it then. -/
theorem passes_collect (n : ℕ) (w : World κ) {i : ℕ} (hi : i ≤ (lines w.input).length) :
    Passes (Action.EndsWithin collect n) ((List.range i).map (outcomes (ε := ε) w).take) [] w
      ((outcomes w).take i) (w.ahead ((lines w.input).drop i)) := by
  -- on the number of rounds: before each of them there is a line ahead, which it takes
  induction i with
  | zero =>
    rw [List.drop_zero, ahead_lines]
    exact .here
  | succ i ih =>
    have hlines : lines (w.ahead ((lines w.input).drop i)).input =
        (lines w.input)[i] :: (lines w.input).drop (i + 1) := by
      rw [World.ahead, Text.lines_flatten_drop, List.drop_eq_getElem_cons hi]
    have hnext : (outcomes (ε := ε) w).take (i + 1) =
        (outcomes w).take i ++ [lineOutcome (lines w.input)[i]] := by
      rw [outcomes, List.take_add_one, List.getElem?_map, List.getElem?_eq_getElem hi]
      rfl
    rw [List.range_succ, List.map_append, List.map_singleton, hnext]
    exact (ih (Nat.le_of_succ_le hi)).snoc (round_collect_cons _ hlines)

/-- The loop ends at the end of the input. -/
theorem evaluate_collect (w : World κ) (hn : (lines w.input).length < n) :
    (Action.loop [] collect).evaluate n w = .value (.ok (outcomes (ε := ε) w)) (Tracing.note
      (.message .trace "tail_rec_m loop finished"
        [("iterations", .number ((lines w.input).length + 1))]) (w.ahead [])) := by
  have hp := passes_collect (ε := ε) n w le_rfl
  have hlen : (outcomes (ε := ε) w).length = (lines w.input).length := List.length_map _
  rw [← hlen, List.take_length, hlen, List.drop_length] at hp
  -- the rounds are those on all lines, and the one that finds no line closes the loop
  refine (evaluate_loop_iff_within (by simp)).2 ⟨_, _, ?_, _, _, hp, round_collect_nil _, ?_⟩
  · rwa [List.length_map, List.length_range]
  · rw [List.length_map, List.length_range]
    exact .finished

end Reads

/-- What would be done after a failure is not, after a value. -/
theorem Handling.evaluate_ok {σ α ε' β : Type} [Tracing σ] (l : Handling σ ε α ε' β)
    {a : Action σ ε α} {n : ℕ} {s s' : σ} {x : α} (h : a.evaluate n s = .value (.ok x) s') :
    ∃ r, (l.apply a).evaluate n s = .value r s' := by
  rw [l.evaluate_apply, Work.bind_value h]
  cases l <;> exact ⟨_, rfl⟩

/-- The loop collects `rs` from the lines of the input of `w`: one outcome for each, in one round
each and one for the end of the input. -/
structure CollectsLines [OfFault ε] (w : World κ) (rs : Collected ε) : Prop where
  readsAs : List.Forall₂ ReadsAs (lines w.input) rs
  rounds : ∀ n i, i ≤ (lines w.input).length → Passes (Action.EndsWithin collect n)
    ((List.range i).map rs.take) [] w (rs.take i) (w.ahead ((lines w.input).drop i))
  ends : ∀ n, (lines w.input).length < n → (Action.loop [] collect).evaluate n w =
    .value (.ok rs) (Tracing.note (.message .trace "tail_rec_m loop finished"
      [("iterations", .number ((lines w.input).length + 1))]) (w.ahead []))
  ofText : ∀ s, bytesOf s = w.input → ∃ ss : List String, rs = ss.map .ok ∧ String.join ss = s
  ofTexts : ∀ ss : List String, rs = ss.map .ok → bytesOf (String.join ss) = w.input

/-- **The loop collects the outcomes of all lines**, and ends. -/
theorem collectsLines_outcomes [OfFault ε] (w : World κ) :
    CollectsLines w (outcomes w : Collected ε) where
  readsAs := by
    rw [outcomes, List.forall₂_map_right_iff, List.forall₂_same]
    exact fun p _ => reads_lineOutcome p
  rounds n i := passes_collect n w
  ends n := evaluate_collect w
  ofText s hs := by
    obtain ⟨ss, hss, rfl⟩ := Text.exists_lines_bytesOf s
    exact ⟨ss, outcomes_eq_map_ok_iff.2 (hs ▸ hss), rfl⟩
  ofTexts ss hss := by
    rw [bytesOf_join, ← outcomes_eq_map_ok_iff.1 hss, Text.flatten_lines]

/-- To build a calm expression and to drop what was built takes nothing of the input. -/
theorem Script.Expr.Calm.build_drop {r : Runner Plan Task} {n : ℕ} {s : Host} {e : Expr}
    (h : e.Calm r n s []) (name : String) :
    ∃ p, (Step.build name e).perform r n s = .value .built (s.fill name p) ∧
      (Step.drop name).perform r n (s.fill name p) = .value .dropped (s.clear name) ∧
      (s.fill name p).input = s.input ∧ (s.clear name).input = s.input := by
  obtain ⟨p, hp⟩ := h.build
  have hslot : (s.fill name p).slots.lookup name = some p := Script.lookup_put name p s.slots
  refine ⟨p, ?_, ?_, rfl, rfl⟩
  · rw [Step.perform, Work.bind_value hp]
    rfl
  · rw [Step.perform, Work.bind_value (Script.takeSlot_run hslot), World.clear_fill]
    rfl

/-- **Reading line by line.** A loop that observes reads collects one outcome for each line of the
input, whatever its bytes are, and ends with the input: the text of a line that is one, and a
failure of other origin for a line that is none, which is taken all the same, so that the next read
starts with the next line. If the input is a text, so is each line, and joined they are the input.

What is not run reads nothing. Reads in layers that go on only after a value are not run after a
failure, nor are those in handlers of failures after a value: the state is the one that the action
inside has left. To build reads, in any calm expression, and to drop them leaves the input. -/
theorem reading_collects_lines [OfFault ε] (w : World κ) :
    (∃ rs : Collected ε, CollectsLines w rs) ∧
    (∀ (α γ : Type) (n : ℕ) (a : Action (World κ) ε α) (p : Passage (World κ) ε α γ) (e : ε) w',
      a.evaluate n w = .value (.error e) w' → (p.apply a).evaluate n w = .value (.error e) w') ∧
    (∀ (α β ε' : Type) (n : ℕ) (a : Action (World κ) ε α) (l : Handling (World κ) ε α ε' β) (x : α)
      w', a.evaluate n w = .value (.ok x) w' → ∃ r, (l.apply a).evaluate n w = .value r w') ∧
    ∀ (r : Runner Plan Task) (n : ℕ) (s : Host) (name : String) (e : Expr), e.Calm r n s [] →
      ∃ p, (Step.build name e).perform r n s = .value .built (s.fill name p) ∧
        (Step.drop name).perform r n (s.fill name p) = .value .dropped (s.clear name) ∧
        (s.fill name p).input = s.input ∧ (s.clear name).input = s.input :=
  ⟨⟨outcomes w, collectsLines_outcomes w⟩, fun _ _ _ _ p _ _ h => p.evaluate_failed h,
    fun _ _ _ _ _ l _ _ h => l.evaluate_ok h, fun _ _ _ name _ h => h.build_drop name⟩

/-- A line, a line that is no text, and a line that has no line end. -/
def mixedInput : Host := .fresh true .values [97, 10, 255, 10, 98]

/-- Reads that wait for a value. -/
def moreReads : Passage Host Fault String (String × String) :=
  .onward (.followedBy .direct Action.getLine) <|
    .onward (.bind .direct fun _ => return Action.getLine) <|
      .onward (.zip .generic Action.getLine) .done

/-- The line that is no text is a failure, and the one after it is read all the same. -/
theorem reading_collects_lines_mixed :
    (∃ f : Fault, f.kind = "other" ∧ ∃ w, w.input = [] ∧
      (Action.loop [] collect).evaluate 4 mixedInput =
        .value (.ok [.ok "a\n", .error f, .ok "b"]) w) ∧
    (moreReads.apply (.failed (.message "no"))).evaluate 1 mixedInput =
      .value (.error (.message "no")) mixedInput ∧
    (∃ r, ((Handling.orElse Action.getLine).apply (.pure "c" : Action Host Fault String)).evaluate 1
      mixedInput = .value r mixedInput) ∧
    ∃ p, (Step.build "a" (.wrap (.observe .direct) .getLine)).perform (Runner.within 1) 1
      mixedInput = .value .built (mixedInput.fill "a" p) := by
  obtain ⟨⟨rs, h⟩, hfailure, hvalue, hbuild⟩ := reading_collects_lines (ε := Fault) mixedInput
  refine ⟨?_, hfailure _ _ 1 _ moreReads _ _ rfl, hvalue _ _ _ 1 _ _ _ _ rfl, ?_⟩
  · have hlines : lines mixedInput.input = [[97, 10], [255, 10], [98]] := rfl
    have hread := h.readsAs
    rw [hlines] at hread
    obtain _ | ⟨hfirst, _ | ⟨hsecond, _ | ⟨hthird, _ | _⟩⟩⟩ := hread
    obtain rfl := hfirst.text "a\n" rfl
    obtain rfl := hthird.text "b" rfl
    have hnone : Text.ofBytes? [255, 10] = none := by decide
    have hno : ∀ s, bytesOf s ≠ [255, 10] := fun s hs =>
      Option.eq_none_iff_forall_ne_some.1 hnone s (Text.ofBytes?_eq_some_iff.2 hs)
    obtain ⟨f, hkind, rfl⟩ := hsecond.failure hno
    exact ⟨f, hkind, _, rfl, h.ends 4 (by decide)⟩
  · obtain ⟨p, hp, -⟩ := hbuild (Runner.within 1) 1 mixedInput "a" _ (.wrap _ (.getLine []))
    exact ⟨p, hp⟩

end Deferral
