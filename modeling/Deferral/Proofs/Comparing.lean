import Deferral.Proofs.Callbacks
import Deferral.Proofs.Sameness
import Deferral.Proofs.Trees

/-!
# Actions that are compared

To compare two actions is to run the left one, then the right one from where the left one has left
the state, and then to put their outcomes to a test, if both are values or both are failures.

* `Action.agreeBy_iff_compares`: `Compares` says how a comparison ends, and what is done on the way.
* `Action.Compares.lists`: so each of the actions is run at most once, and at most one test is
  asked, once, about the two outcomes in their order.
* `Action.yields_agree`: actions that come to the same outcome from all states.
* `comparisons_decide`: **comparisons run both sides and then ask one test**, and where outcomes do
  not depend on the state, to be equal by a comparison is to have equal outcomes.
-/

namespace Deferral

open Script (Value)

variable {σ ε α β ρ ω : Type}

/-- Something that a comparison does. -/
inductive Stage (ε α : Type) where
  /-- The left action is run. -/
  | left
  /-- The right action is run. -/
  | right
  /-- The test of values is asked about these. -/
  | values (a b : α)
  /-- The test of failures is asked about these. -/
  | failures (e f : ε)

/-- What a stage adds to a list, where this is known of its parts. -/
def Stage.entries (l r : List ω) (v : α → α → List ω) (f : ε → ε → List ω) : Stage ε α → List ω
  | left => l
  | right => r
  | values a b => v a b
  | failures e e' => f e e'

section Compares

variable [Tracing σ] {l r : Action σ ε α} {valueEq : α → α → Work σ Bool}
  {errorEq : ε → ε → Work σ Bool} {n : ℕ} {s : σ} {e : Ending σ Bool}

/-- How a comparison ends, and what it does on the way. A panic ends it at once; so does a value
on one side and a failure on the other, once both were run. -/
inductive Action.Compares (l r : Action σ ε α) (valueEq : α → α → Work σ Bool)
    (errorEq : ε → ε → Work σ Bool) (n : ℕ) (s : σ) :
    Ending σ Bool → List (Stage ε α) → Prop where
  | leftPanics {p : Payload} {s₁ : σ} (hl : l.run n s = .panic p s₁) :
      Compares l r valueEq errorEq n s (.panic p s₁) [.left]
  | leftEndless (hl : l.run n s = .exhausted) : Compares l r valueEq errorEq n s .exhausted [.left]
  | rightPanics {x : Except ε α} {p : Payload} {s₁ s₂ : σ} (hl : l.run n s = .value x s₁)
      (hr : r.run n s₁ = .panic p s₂) :
      Compares l r valueEq errorEq n s (.panic p s₂) [.left, .right]
  | rightEndless {x : Except ε α} {s₁ : σ} (hl : l.run n s = .value x s₁)
      (hr : r.run n s₁ = .exhausted) :
      Compares l r valueEq errorEq n s .exhausted [.left, .right]
  | values {a b : α} {s₁ s₂ : σ} (hl : l.run n s = .value (.ok a) s₁)
      (hr : r.run n s₁ = .value (.ok b) s₂) :
      Compares l r valueEq errorEq n s (valueEq a b n s₂) [.left, .right, .values a b]
  | failures {e f : ε} {s₁ s₂ : σ} (hl : l.run n s = .value (.error e) s₁)
      (hr : r.run n s₁ = .value (.error f) s₂) :
      Compares l r valueEq errorEq n s (errorEq e f n s₂) [.left, .right, .failures e f]
  | valueAndFailure {a : α} {f : ε} {s₁ s₂ : σ} (hl : l.run n s = .value (.ok a) s₁)
      (hr : r.run n s₁ = .value (.error f) s₂) :
      Compares l r valueEq errorEq n s (.value false s₂) [.left, .right]
  | failureAndValue {e : ε} {b : α} {s₁ s₂ : σ} (hl : l.run n s = .value (.error e) s₁)
      (hr : r.run n s₁ = .value (.ok b) s₂) :
      Compares l r valueEq errorEq n s (.value false s₂) [.left, .right]

namespace Action

/-- What becomes of two outcomes. -/
def tested (valueEq : α → α → Work σ Bool) (errorEq : ε → ε → Work σ Bool) :
    Except ε α → Except ε α → Work σ Bool
  | .ok a, .ok b => valueEq a b
  | .error e, .error f => errorEq e f
  | _, _ => return false

theorem agreeBy_eq_tested (l r : Action σ ε α) (valueEq : α → α → Work σ Bool)
    (errorEq : ε → ε → Work σ Bool) : l.agreeBy r valueEq errorEq =
      l.run >>= fun x => r.run >>= fun y => tested valueEq errorEq x y := by
  refine bind_congr fun x => bind_congr fun y => ?_
  cases x <;> cases y <;> rfl

/-- A comparison whose left side is run without a panic. -/
theorem agreeBy_of_left {x : Except ε α} {s₁ : σ} (hl : l.run n s = .value x s₁) :
    l.agreeBy r valueEq errorEq n s = (r.run >>= fun y => tested valueEq errorEq x y) n s₁ := by
  rw [agreeBy_eq_tested, Work.bind_run, hl]

/-- A comparison whose sides are both run without a panic. -/
theorem agreeBy_of_both {x y : Except ε α} {s₁ s₂ : σ} (hl : l.run n s = .value x s₁)
    (hr : r.run n s₁ = .value y s₂) :
    l.agreeBy r valueEq errorEq n s = tested valueEq errorEq x y n s₂ := by
  rw [agreeBy_of_left hl, Work.bind_run, hr]

/-- However the sides end, the stages say so. -/
theorem exists_compares (l r : Action σ ε α) (valueEq : α → α → Work σ Bool)
    (errorEq : ε → ε → Work σ Bool) (n : ℕ) (s : σ) :
    ∃ stages, Compares l r valueEq errorEq n s (l.agreeBy r valueEq errorEq n s) stages := by
  -- the cases are those of the two endings, in the order in which the sides are run
  cases hl : l.run n s with
  | panic p s₁ =>
    rw [agreeBy_eq_tested, Work.bind_run, hl]
    exact ⟨_, .leftPanics hl⟩
  | exhausted =>
    rw [agreeBy_eq_tested, Work.bind_run, hl]
    exact ⟨_, .leftEndless hl⟩
  | value x s₁ =>
    cases hr : r.run n s₁ with
    | panic p s₂ =>
      rw [agreeBy_of_left hl, Work.bind_run, hr]
      exact ⟨_, .rightPanics hl hr⟩
    | exhausted =>
      rw [agreeBy_of_left hl, Work.bind_run, hr]
      exact ⟨_, .rightEndless hl hr⟩
    | value y s₂ =>
      rw [agreeBy_of_both hl hr]
      rcases x with e | a <;> rcases y with f | b
      · exact ⟨_, .failures hl hr⟩
      · exact ⟨_, .failureAndValue hl hr⟩
      · exact ⟨_, .valueAndFailure hl hr⟩
      · exact ⟨_, .values hl hr⟩

/-- The stages say how the comparison ends. -/
theorem Compares.agreeBy_eq {stages : List (Stage ε α)}
    (h : Compares l r valueEq errorEq n s e stages) : l.agreeBy r valueEq errorEq n s = e := by
  cases h with
  | leftPanics hl | leftEndless hl => rw [agreeBy_eq_tested, Work.bind_run, hl]
  | rightPanics hl hr | rightEndless hl hr => rw [agreeBy_of_left hl, Work.bind_run, hr]
  | values hl hr | failures hl hr | valueAndFailure hl hr | failureAndValue hl hr =>
    exact agreeBy_of_both hl hr

/-- **How comparisons go.** -/
theorem agreeBy_iff_compares :
    l.agreeBy r valueEq errorEq n s = e ↔ ∃ stages, Compares l r valueEq errorEq n s e stages := by
  constructor
  · rintro rfl
    exact exists_compares l r valueEq errorEq n s
  · rintro ⟨stages, h⟩
    exact h.agreeBy_eq

/-- **Each stage is gone through once**, and in order: a list has what they have added. -/
theorem Compares.lists {stages : List (Stage ε α)} {list : σ → List ω} {es es' : List ω}
    {v : α → α → List ω} {f : ε → ε → List ω} {s' : σ}
    (h : Compares l r valueEq errorEq n s e stages)
    (hl : l.run.Lists list es) (hr : r.run.Lists list es')
    (hvalues : ∀ a b, (valueEq a b).Lists list (v a b))
    (herrors : ∀ x y, (errorEq x y).Lists list (f x y)) (hs : e.state? = some s') :
    list s' = list s ++ stages.flatMap (Stage.entries es es' v f) := by
  -- what was added once the left side was run, and once both were
  have hleft : ∀ {x s₁}, l.run n s = .value x s₁ → list s₁ = list s ++ es :=
    fun h => hl n s _ (congrArg Ending.state? h)
  have hboth : ∀ {x s₁ y s₂}, l.run n s = .value x s₁ → r.run n s₁ = .value y s₂ →
      list s₂ = list s ++ es ++ es' :=
    fun h h' => (hr n _ _ (congrArg Ending.state? h')).trans (congrArg (· ++ es') (hleft h))
  cases h with
  | leftPanics h =>
    rw [hl n s s' ((congrArg Ending.state? h).trans hs)]
    simp [Stage.entries]
  | leftEndless h | rightEndless h h' => cases hs
  | rightPanics h h' =>
    rw [hr n _ s' ((congrArg Ending.state? h').trans hs), hleft h]
    simp [Stage.entries]
  | values h h' =>
    rw [hvalues _ _ n _ s' hs, hboth h h']
    simp [Stage.entries]
  | failures h h' =>
    rw [herrors _ _ n _ s' hs, hboth h h']
    simp [Stage.entries]
  | valueAndFailure h h' | failureAndValue h h' =>
    obtain rfl := Option.some.inj hs
    rw [hboth h h']
    simp [Stage.entries]

end Action

end Compares

section Yields

/-- From every state, and given time enough, the work gives `a`. -/
def Work.Yields (w : Work σ α) (a : α) : Prop := ∀ s, ∃ s' N, ∀ n, N ≤ n → w n s = .value a s'

theorem Work.yields_pure (a : α) : (pure a : Work σ α).Yields a := fun s => ⟨s, 0, fun _ _ => rfl⟩

/-- One after the other, if the second gives its value from wherever the first has left off. -/
theorem Work.Yields.bind {w : Work σ α} {f : α → Work σ β} {a : α} {b : β} (hw : w.Yields a)
    (hf : (f a).Yields b) : (w >>= f).Yields b := by
  intro s
  obtain ⟨s₁, N, h⟩ := hw s
  obtain ⟨s₂, N', h'⟩ := hf s₁
  refine ⟨s₂, max N N', fun n hn => ?_⟩
  rw [Work.bind_run, h n (le_of_max_le_left hn)]
  exact h' n (le_of_max_le_right hn)

/-- Work gives one thing, if there is a state to start from. -/
theorem Work.Yields.eq {w : Work σ α} {a b : α} (ha : w.Yields a) (hb : w.Yields b) (s : σ) :
    a = b := by
  obtain ⟨s₁, N, h⟩ := ha s
  obtain ⟨s₂, N', h'⟩ := hb s
  have hab := (h _ (le_max_left N N')).symm.trans (h' _ (le_max_right N N'))
  cases hab
  rfl

variable [Tracing σ]

/-- A run gives what the evaluation inside its span gives. -/
theorem Action.yields_run {a : Action σ ε α} {x : Except ε α} (ha : a.evaluate.Yields x) :
    a.run.Yields x := by
  intro s
  obtain ⟨s₁, N, h⟩ := ha (intoSpan s)
  obtain ⟨s₂, hs₂, -⟩ := Action.exists_run_eq_value (h N le_rfl)
  exact ⟨s₂, N, fun n hn => by rw [a.run_eq_outOfSpan, h n hn, hs₂]⟩

/-- Two values are equal, or two failures are. -/
def sameOutcome [BEq α] [BEq ε] : Except ε α → Except ε α → Bool
  | .ok a, .ok b => a == b
  | .error e, .error f => e == f
  | _, _ => false

/-- A comparison gives whether the outcomes are the same. -/
theorem Action.yields_agree [BEq α] [BEq ε] {l r : Action σ ε α} {x y : Except ε α}
    (hl : l.evaluate.Yields x) (hr : r.evaluate.Yields y) :
    (l.agree r).Yields (sameOutcome x y) := by
  rw [agree, agreeBy_eq_tested]
  refine (yields_run hl).bind ((yields_run hr).bind ?_)
  rcases x with e | a <;> rcases y with f | b <;> exact Work.yields_pure _

/-- Where outcomes are in `P` and do not depend on the state, a comparison tells whether their
views are equal. -/
structure ComparisonLaws (σ : Type) [Tracing σ] [BEq α] [BEq ε] (P : Except ε α → Prop)
    (view : Except ε α → ρ) : Prop where
  decides (l r : Action σ ε α) (x y : Except ε α) (hx : P x) (hy : P y)
    (hl : l.evaluate.Yields x) (hr : r.evaluate.Yields y) :
    ∃ b, (l.agree r).Yields b ∧ (b = true ↔ view x = view y)
  equivalence : Equivalence fun l r : { a : Action σ ε α // ∃ x, P x ∧ a.evaluate.Yields x } =>
    (l.1.agree r.1).Yields true

/-- It is enough that the test of outcomes tells whether the views are equal. -/
theorem ComparisonLaws.of_iff [BEq α] [BEq ε] {P : Except ε α → Prop} {view : Except ε α → ρ}
    (h : ∀ x y, P x → P y → (sameOutcome x y = true ↔ view x = view y)) :
    ComparisonLaws σ P view := by
  -- an answer of `true` says that the views are equal, and the other way round
  have htrue : ∀ {l r : Action σ ε α} {x y}, P x → P y → l.evaluate.Yields x → r.evaluate.Yields y →
      view x = view y → (l.agree r).Yields true := by
    intro l r x y hx hy hl hr hview
    rw [← (h x y hx hy).2 hview]
    exact Action.yields_agree hl hr
  have hview : ∀ {l r : Action σ ε α} {x y}, P x → P y → l.evaluate.Yields x → r.evaluate.Yields y →
      (l.agree r).Yields true → ∀ _ : σ, view x = view y := by
    intro l r x y hx hy hl hr hagree s
    exact (h x y hx hy).1 ((Action.yields_agree hl hr).eq hagree s)
  -- an equivalence, since equality of the views is one
  refine ⟨fun l r x y hx hy hl hr => ⟨_, Action.yields_agree hl hr, h x y hx hy⟩, ?_, ?_, ?_⟩
  · rintro ⟨l, x, hx, hl⟩
    exact htrue hx hx hl hl rfl
  · rintro ⟨l, x, hx, hl⟩ ⟨r, y, hy, hr⟩ hlr s
    exact htrue hy hx hr hl (hview hx hy hl hr hlr s).symm s
  · rintro ⟨l, x, hx, hl⟩ ⟨r, y, hy, hr⟩ ⟨t, z, hz, ht⟩ hlr hrt s
    exact htrue hx hz hl ht ((hview hx hy hl hr hlr s).trans (hview hy hz hr ht hrt s)) s

end Yields

/-- No function is in the outcome. -/
def outcomeFunctionFree : Except Value Value → Prop
  | .ok v | .error v => v.FunctionFree

/-- The outcome without what is behind its faults. -/
def bareOutcome : Except Value Value → Except Value Value
  | .ok v => .ok v.bare
  | .error e => .error e.bare

/-- Outcomes of scripts without functions are the same if they differ only behind their faults. -/
theorem sameOutcome_iff_bare (x y : Except Value Value) (hx : outcomeFunctionFree x) :
    sameOutcome x y = true ↔ bareOutcome x = bareOutcome y := by
  rcases x with e | v <;> rcases y with f | w
  · exact (e.same_iff_bare f hx).trans (Except.error.injEq _ _).symm.to_iff
  · simp [sameOutcome, bareOutcome]
  · simp [sameOutcome, bareOutcome]
  · exact (v.same_iff_bare w hx).trans (Except.ok.injEq _ _).symm.to_iff

/-- Where tests of equality are lawful, outcomes that are the same are equal. -/
theorem sameOutcome_iff_eq [BEq α] [BEq ε] [LawfulBEq α] [LawfulBEq ε] (x y : Except ε α) :
    sameOutcome x y = true ↔ x = y := by
  rcases x with e | v <;> rcases y with f | w <;> simp [sameOutcome]

/-- **Comparisons run both sides and then ask one test.** The left action is run, then the right
one from the state that the left one has left, each in a span of its own, also if the left one has
failed; a panic ends it at once. After two values or two failures the test that is there for them
is asked, once and about both in their order, and its ending is that of the comparison. After a
value and a failure none is asked, and the answer is no. Each of these stages is gone through
once: a list has the entries of all of them.

So where two actions come to outcomes that do not depend on the state, their comparison tells
whether the outcomes are equal, and is an equivalence: for values of scripts without functions,
which are equal if they are built alike, and for types whose test of equality is lawful. -/
theorem comparisons_decide [Tracing σ] :
    (∀ (l r : Action σ ε α) (valueEq : α → α → Work σ Bool) (errorEq : ε → ε → Work σ Bool) (n : ℕ)
      (s : σ),
      (∀ (a : Action σ ε α) (s : σ), a.run n s = (a.evaluate n (intoSpan s)).outOfSpan) ∧
      (∀ e, l.agreeBy r valueEq errorEq n s = e ↔
        ∃ stages, Action.Compares l r valueEq errorEq n s e stages) ∧
      ∀ (ω : Type) (list : σ → List ω) (es es' : List ω) (v : α → α → List ω) (f : ε → ε → List ω),
        (∀ t s, list (Tracing.note t s) = list s) → l.evaluate.Lists list es →
        r.evaluate.Lists list es' → (∀ a b, (valueEq a b).Lists list (v a b)) →
        (∀ x y, (errorEq x y).Lists list (f x y)) →
        ∀ e stages s', Action.Compares l r valueEq errorEq n s e stages → e.state? = some s' →
          list s' = list s ++ stages.flatMap (Stage.entries es es' v f)) ∧
    ComparisonLaws σ outcomeFunctionFree bareOutcome ∧
    ∀ (ε α : Type) [BEq α] [BEq ε] [LawfulBEq α] [LawfulBEq ε],
      ComparisonLaws σ (fun _ : Except ε α => True) id := by
  refine ⟨fun l r valueEq errorEq n s => ⟨fun a s => a.run_eq_outOfSpan n s,
    fun e => Action.agreeBy_iff_compares, ?_⟩,
    .of_iff fun x y hx _ => sameOutcome_iff_bare x y hx,
    fun ε α => .of_iff fun x y _ _ => sameOutcome_iff_eq x y⟩
  intro ω list es es' v f hnote hl hr hvalues herrors e stages s' h hs
  exact h.lists (Action.lists_run hnote hl) (Action.lists_run hnote hr) hvalues herrors hs

/-- Lists what it is asked, and panics. -/
def asking (a b : ℕ) : Work Complaints Bool := do
  Work.update fun s => (s.1 ++ [toString a, toString b], s.2)
  Work.panic (.text "asked")

theorem asking_lists (a b : ℕ) : (asking a b).Lists Prod.fst [toString a, toString b] := by
  intro n s s' hs
  cases hs
  rfl

/-- Takes a note, and gives a fault that has another one behind it. -/
def chainedFault : Action (List Trace) Value Value := .ofWork do
  emit .enter
  return .fault (.other (.chained "t" "cause"))

/-- A test that panics after both sides, and two faults that differ only behind their text. -/
theorem comparisons_decide_asking :
    (∃ s', (entering "a" (.ok (.ok 1))).agreeBy (entering "b" (.ok (.ok 2))) asking
        (fun _ _ => return true) 0 ([], []) = .panic (.text "asked") s' ∧
      s'.1 = ["a", "b", "1", "2"]) ∧
    (Action.pure (.fault (.other (.plain "t"))) : Action (List Trace) Value Value).evaluate.Yields
      (.ok (.fault (.other (.plain "t")))) ∧
    (chainedFault.agree (.pure (.fault (.other (.plain "t"))))).Yields true := by
  obtain ⟨hgoes, -⟩ := comparisons_decide (σ := Complaints) (ε := String) (α := ℕ)
  obtain ⟨-, hends, hlists⟩ := hgoes (entering "a" (.ok (.ok 1))) (entering "b" (.ok (.ok 2)))
    asking (fun _ _ => return true) 0 ([], [])
  obtain ⟨_, hstages, s', rfl⟩ : ∃ e, Action.Compares (entering "a" (.ok (.ok 1)))
      (entering "b" (.ok (.ok 2))) asking (fun _ _ => return true) 0 ([], []) e
      [.left, .right, .values 1 2] ∧ ∃ s', e = .panic (.text "asked") s' :=
    ⟨_, .values rfl rfl, _, rfl⟩
  have hlist := hlists String Prod.fst ["a"] ["b"] (fun a b => [toString a, toString b])
    (fun _ _ => []) (fun _ _ => rfl) (entering_enters "a" _) (entering_enters "b" _) asking_lists
    (fun _ _ => Work.lists_pure true) _ _ _ hstages rfl
  obtain ⟨-, hlaws, -⟩ := comparisons_decide (σ := List Trace) (ε := ℕ) (α := ℕ)
  have hchained : chainedFault.evaluate.Yields (.ok (.fault (.other (.chained "t" "cause")))) :=
    fun s => ⟨_, 0, fun _ _ => rfl⟩
  have hplain : (Action.pure (.fault (.other (.plain "t"))) :
      Action (List Trace) Value Value).evaluate.Yields (.ok (.fault (.other (.plain "t")))) :=
    Work.yields_pure _
  obtain ⟨b, hb, heq⟩ := hlaws.decides chainedFault (.pure (.fault (.other (.plain "t"))))
    (.ok (.fault (.other (.chained "t" "cause")))) (.ok (.fault (.other (.plain "t"))))
    trivial trivial hchained hplain
  exact ⟨⟨s', (hends _).2 ⟨_, hstages⟩, hlist⟩, hplain, heq.2 rfl ▸ hb⟩

end Deferral
