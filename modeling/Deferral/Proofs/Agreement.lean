import Deferral.Action.Lemmas
import Deferral.Action.Run
import Deferral.Carrier.Instances
import Deferral.Proofs.Gives
import Deferral.Proofs.Program

/-!
# Finished outcomes and actions agree

A program can be built as a result, whose functions are called while it is built,
or as an action, which does nothing until it is run. Both come to the same.

* `Program.Settles.gives_result`, `Program.Settles.gives_action`: built either way, a
  program gives what it settles to. As a result it does so without a change of the
  state; evaluating the action only adds entries to the trace. Both are by induction
  on the program, and for loops on their rounds.
* `Program.exists_settles`: a result that is there under some budget was settled,
  so the loops of a program end where building the result ends.
* `Program.buildOption_eq`: the optional value forgets which failure it was, and
  nothing else.
-/

namespace Deferral

open Work

variable {σ τ ε α β γ : Type} {handling : Bool}

namespace Work

/-- A run adds its span, and a note of a failure. -/
theorem Gives.run [Tracing σ] {a : Action σ ε α} {r : Except ε α} (h : Gives Noted a.evaluate r) :
    Gives Noted a.run r := by
  refine (gives_emit _).bind ((gives_emit _).bind (Gives.always ?_ fun _ => .single ⟨_, rfl⟩))
  refine h.bind ?_
  cases r with
  | ok x => exact gives_pure _
  | error e => exact (gives_emit _).bind (gives_pure _)

end Work

namespace Program

/-- The program as a result. -/
abbrev result (σ : Type) (p : Program ε handling α) : Work σ (Except ε α) := p.build σ (Except ε)

/-- The program as an action. -/
abbrev action (σ : Type) [Tracing σ] (p : Program ε handling α) : Action σ ε α :=
  (p.build σ (Action σ ε)).run

theorem map_host (x : Except ε (α → β)) :
    (Mappable.map x fun f => return host σ f : Work σ _) = return host σ <$> x := by
  cases x <;> rfl

theorem map_host_toOption (x : Except ε (α → β)) :
    (Mappable.map x.toOption fun f => return host σ f : Work σ _) = return host σ <$> x.toOption := by
  cases x <;> rfl

/-- A loop gives what it settles to, if its steps do. -/
theorem Settles.gives_loop {R : σ → σ → Prop} [IsPreorder σ R] {seed : τ}
    {step : τ → Program ε handling (Either τ β)} {w : τ → Work σ (Except ε (Either τ β))}
    {r : Except ε β} (h : (loop seed step).Settles r)
    (ih : ∀ t x, (step t).Settles x → Gives R (w t) x) :
    ∃ k, Gives R (iterateExcept w seed) (r, k) := by
  obtain ⟨t, hts, hr⟩ := h
  refine Gives.iterateExcept (Relation.ReflTransGen.mono (fun t _ hl => ih t _ hl) _ _ hts) ?_
  rcases hr with ⟨b, hb, rfl⟩ | ⟨e, he, rfl⟩
  · exact .inl ⟨b, ih t _ hb, rfl⟩
  · exact .inr ⟨e, ih t _ he, rfl⟩

/-- The result is what the program settles to, with the state unchanged. -/
theorem Settles.gives_result {p : Program ε handling α} {r : Except ε α} (h : p.Settles r) :
    Gives Eq (p.result σ) r := by
  induction p with
  | ofValue a | throw e => obtain rfl := h; exact gives_pure _
  | ofExcept _ x => obtain rfl := h; cases r <;> exact gives_pure _
  | map _ _ ih | mapConst _ _ ih | discard _ ih | observe _ _ ih | recover _ _ _ ih
  | adapt _ _ _ ih =>
    obtain ⟨x, hx, rfl⟩ := h
    refine (ih hx).bind ?_
    cases x <;> exact gives_pure _
  | zipWith _ _ _ ihp ihq | zip _ _ ihp ihq | seqLeft _ _ ihp ihq | seqRight _ _ ihp ihq
  | followedBy _ _ ihp ihq | orElse _ _ _ ihp ihq =>
    obtain ⟨x, y, hx, hy, rfl⟩ := h
    refine (ihp hx).bind ((ihq hy).bind ?_)
    cases x <;> cases y <;> exact gives_pure _
  | seq p q ihp ihq =>
    obtain ⟨x, y, hx, hy, rfl⟩ := h
    refine (ihp hx).bind ?_
    rw [map_host, pure_bind]
    refine (ihq hy).bind ?_
    cases x <;> cases y <;> exact gives_pure _
  | bind _ _ ihp ihk | andThen _ _ ihp ihk =>
    rcases h with ⟨a, ha, hr⟩ | ⟨e, he, rfl⟩
    · exact (ihp ha).bind (ihk a hr)
    · exact (ihp he).bind (gives_pure _)
  | tryCatch _ p k ihp ihk =>
    rcases h with ⟨a, ha, rfl⟩ | ⟨e, he, hr⟩
    · exact (ihp ha).bind (gives_pure _)
    · exact (ihp he).bind (ihk e hr)
  | loop seed step ih =>
    obtain ⟨k, hk⟩ := h.gives_loop fun t _ hx => ih t hx
    exact hk.map Prod.fst

/-- Evaluating the action gives what the program settles to. -/
theorem Settles.gives_action [Tracing σ] {p : Program ε handling α} {r : Except ε α}
    (h : p.Settles r) : Gives Noted (p.action σ).evaluate r := by
  induction p with
  | ofValue a | throw e => obtain rfl := h; exact gives_pure _
  | ofExcept _ x => obtain rfl := h; cases r <;> exact gives_pure _
  | map _ _ ih | mapConst _ _ ih | discard _ ih | observe _ _ ih =>
    obtain ⟨x, hx, rfl⟩ := h
    refine (ih hx).bind ?_
    cases x <;> exact gives_pure _
  | zipWith _ _ _ ihp ihq | zip _ _ ihp ihq | seqLeft _ _ ihp ihq | seqRight _ _ ihp ihq =>
    obtain ⟨x, y, hx, hy, rfl⟩ := h
    change Gives Noted (Action.zipWith _ _ _).evaluate _
    rw [Action.evaluate_zipWith]
    refine (ihp hx).bind ?_
    cases x with
    -- the right operand has an outcome too, but it is not run
    | error e => exact gives_pure _
    | ok a =>
      refine (ihq hy).bind ?_
      cases y <;> exact gives_pure _
  | followedBy _ _ ihp ihq =>
    obtain ⟨x, y, hx, hy, rfl⟩ := h
    change Gives Noted (Action.followedBy _ _).evaluate _
    rw [Action.evaluate_followedBy]
    refine (ihp hx).bind ?_
    cases x with
    | error e => exact gives_pure _
    | ok a => exact ihq hy
  | seq p q ihp ihq =>
    obtain ⟨x, y, hx, hy, rfl⟩ := h
    change Gives Noted (Action.seq (Action.map _ _) _).evaluate _
    rw [Action.evaluate_seq, Action.evaluate_map, bind_assoc]
    refine (ihp hx).bind ?_
    cases x with
    | error e => exact gives_pure _
    | ok f =>
      refine (ihq hy).bind ?_
      cases y <;> exact gives_pure _
  | bind _ _ ihp ihk | andThen _ _ ihp ihk =>
    change Gives Noted (Action.bind _ _).evaluate _
    rw [Action.evaluate_bind]
    rcases h with ⟨a, ha, hr⟩ | ⟨e, he, rfl⟩
    · exact (ihp ha).bind (ihk a hr)
    · exact (ihp he).bind (gives_pure _)
  | tryCatch _ p k ihp ihk =>
    change Gives Noted (Action.tryCatch _ _).evaluate _
    rw [Action.evaluate_tryCatch]
    rcases h with ⟨a, ha, rfl⟩ | ⟨e, he, hr⟩
    · exact (ihp ha).bind (gives_pure _)
    · exact (ihp he).bind (ihk e hr)
  | recover _ _ _ ih | adapt _ _ _ ih =>
    obtain ⟨x, hx, rfl⟩ := h
    change Gives Noted (Action.tryCatch _ _).evaluate _
    rw [Action.evaluate_tryCatch]
    refine (ih hx).bind ?_
    cases x <;> exact gives_pure _
  | orElse _ _ _ ihp ihq =>
    obtain ⟨x, y, hx, hy, rfl⟩ := h
    change Gives Noted (Action.tryCatch _ _).evaluate _
    rw [Action.evaluate_tryCatch]
    refine (ihp hx).bind ?_
    cases x with
    | error e => exact ihq hy
    | ok a => exact gives_pure _
  | loop seed step ih =>
    obtain ⟨k, hk⟩ := h.gives_loop fun t _ hx => ih t hx
    exact hk.bind ((gives_emit _).bind (gives_pure _))

/-- A loop that ends under some budget settles, if its steps settle where they end. -/
theorem exists_settles_loop {τ β : Type} {step : τ → Program ε handling (Either τ β)} {n : ℕ} {s : σ}
    (ih : ∀ t, (step t).result σ n s ≠ .exhausted → ∃ x, (step t).Settles x) {more done : ℕ} {t : τ}
    (h : iterateFrom (exceptRound fun t => (step t).result σ) n more done t s ≠ .exhausted) :
    ∃ r, (loop t step).Settles r := by
  -- on the rounds that are allowed; those that are taken are the chain of left values
  induction more generalizing done t with
  | zero => exact absurd rfl h
  | succ more ihm =>
    have hround : exceptRound (fun t => (step t).result σ) t n s ≠ .exhausted := by
      intro he
      exact h (iterateFrom_exhausted he)
    obtain ⟨x, hx⟩ := ih t (left_of_bind hround)
    have hstep := (hx.gives_result (σ := σ)).eq_of_ne (left_of_bind hround)
    rcases x with e | (t' | b)
    · exact ⟨.error e, t, .refl, .inr ⟨e, hx, rfl⟩⟩
    · have hleft : exceptRound (fun t => (step t).result σ) t n s = .value (.left t') s := by
        rw [exceptRound, bind_run, hstep]
        rfl
      rw [iterateFrom_left hleft] at h
      obtain ⟨r, t₁, hts, hr⟩ := ihm h
      exact ⟨r, t₁, .head hx hts, hr⟩
    · exact ⟨.ok b, t, .refl, .inl ⟨b, hx, rfl⟩⟩

/-- Where building the result ends, the program settles. -/
theorem exists_settles (p : Program ε handling α) {n : ℕ} {s : σ}
    (h : p.result σ n s ≠ .exhausted) : ∃ r, p.Settles r := by
  induction p with
  | ofValue a => exact ⟨_, rfl⟩
  | throw e => exact ⟨_, rfl⟩
  | ofExcept _ x => exact ⟨_, rfl⟩
  | map _ _ ih | mapConst _ _ ih | discard _ ih | observe _ _ ih | recover _ _ _ ih
  | adapt _ _ _ ih =>
    obtain ⟨x, hx⟩ := ih (left_of_bind h)
    exact ⟨_, x, hx, rfl⟩
  | zipWith _ _ _ ihp ihq | zip _ _ ihp ihq | seqLeft _ _ ihp ihq | seqRight _ _ ihp ihq
  | followedBy _ _ ihp ihq | orElse _ _ _ ihp ihq =>
    obtain ⟨x, hx⟩ := ihp (left_of_bind h)
    obtain ⟨y, hy⟩ := ihq (left_of_bind (hx.gives_result.right_of_bind h))
    exact ⟨_, x, y, hx, hy, rfl⟩
  | seq p q ihp ihq =>
    obtain ⟨x, hx⟩ := ihp (left_of_bind h)
    have hq := hx.gives_result.right_of_bind h
    rw [map_host, pure_bind] at hq
    obtain ⟨y, hy⟩ := ihq (left_of_bind hq)
    exact ⟨_, x, y, hx, hy, rfl⟩
  | bind p k ihp ihk | andThen p k ihp ihk =>
    obtain ⟨x, hx⟩ := ihp (left_of_bind h)
    cases x with
    | ok a =>
      obtain ⟨r, hr⟩ := ihk a (hx.gives_result.right_of_bind h)
      exact ⟨r, .inl ⟨a, hx, hr⟩⟩
    | error e => exact ⟨_, .inr ⟨e, hx, rfl⟩⟩
  | tryCatch _ p k ihp ihk =>
    obtain ⟨x, hx⟩ := ihp (left_of_bind h)
    cases x with
    | ok a => exact ⟨_, .inl ⟨a, hx, rfl⟩⟩
    | error e =>
      obtain ⟨r, hr⟩ := ihk e (hx.gives_result.right_of_bind h)
      exact ⟨r, .inr ⟨e, hx, hr⟩⟩
  | loop seed step ih => exact exists_settles_loop ih (left_of_bind h)

/-- A step that gives a left value in some round settles to it. -/
theorem settles_of_exceptRound {step : τ → Program ε handling (Either τ α)} {t t' : τ} {n : ℕ}
    {s s' : σ} (h : exceptRound (fun t => (step t).result σ) t n s = .value (.left t') s') :
    (step t).Settles (.ok (.left t')) := by
  have hround : exceptRound (fun t => (step t).result σ) t n s ≠ .exhausted := by
    rw [h]
    nofun
  have hne : (step t).result σ n s ≠ .exhausted := left_of_bind hround
  obtain ⟨x, hx⟩ := (step t).exists_settles hne
  rw [exceptRound, bind_run, hx.gives_result.eq_of_ne hne] at h
  -- only a left value goes on to another round
  rcases x with e | (t₁ | a)
  · cases h
  · cases h
    exact hx
  · cases h

/-- What follows a result matters only for what the program settles to. -/
theorem result_bind_congr {p : Program ε handling α} {f g : Except ε α → Work σ β}
    (h : ∀ x, p.Settles x → f x = g x) : p.result σ >>= f = p.result σ >>= g := by
  funext n s
  rw [bind_run, bind_run]
  by_cases he : p.result σ n s = .exhausted
  · rw [he]
  · obtain ⟨x, hx⟩ := p.exists_settles he
    rw [hx.gives_result.eq_of_ne he]
    change f x n s = g x n s
    rw [h x hx]

section Loop

variable {round : τ → Work σ (Either τ α)} {round' : τ → Work σ (Either τ β)} {f : α → β}
  (h : ∀ t, round' t = round t >>= Either.mapRight (host σ f))

include h

theorem iterateFrom_mapRight (n more done : ℕ) (t : τ) (s : σ) :
    iterateFrom round' n more done t s = match iterateFrom round n more done t s with
      | .value (a, k) s' => .value (f a, k) s'
      | .panic p s' => .panic p s'
      | .exhausted => .exhausted := by
  induction more generalizing done t s with
  | zero => rfl
  | succ more ih =>
    simp only [iterateFrom, h t, bind_run]
    rcases round t n s with ⟨t' | a, s'⟩ | ⟨p, s'⟩ | _
    · exact ih (done + 1) t' s'
    · rfl
    · rfl
    · rfl

/-- A loop whose rounds only end with another value ends with that value. -/
theorem iterate_mapRight (seed : τ) : iterate round' seed = Prod.map f id <$> iterate round seed := by
  funext n s
  rw [iterate, iterateFrom_mapRight h, map_eq_pure_bind, bind_run, iterate]
  rcases iterateFrom round n n 0 seed s with _ | _ | _ <;> rfl

end Loop

/-- **Optional values.** As an optional value, the program has a value exactly where
the result is one. -/
theorem buildOption_eq (p : Program Unit false α) :
    p.buildOption σ = Except.toOption <$> p.result σ := by
  induction p with
  | ofValue a => rfl
  | throw e => rfl
  | ofExcept allowed | observe allowed | tryCatch allowed | recover allowed | orElse allowed
  | adapt allowed => cases allowed
  | map _ _ ih | mapConst _ _ ih | discard _ ih =>
    simp only [buildOption, build, ih, bind_map_left, map_bind]
    congr 1
    funext x
    cases x <;> rfl
  | zipWith _ _ _ ihp ihq | zip _ _ ihp ihq | seqLeft _ _ ihp ihq | seqRight _ _ ihp ihq
  | followedBy _ _ ihp ihq =>
    simp only [buildOption, build, ihp, ihq, bind_map_left, map_bind]
    -- the same programs are built in the same order, so only the outcomes are left
    congr 1
    funext x
    congr 1
    funext y
    cases x <;> cases y <;> rfl
  | seq p q ihp ihq =>
    simp only [buildOption, build, ihp, ihq, bind_map_left, map_bind, map_host, map_host_toOption,
      pure_bind]
    congr 1
    funext x
    congr 1
    funext y
    cases x <;> cases y <;> rfl
  | bind p k ihp ihk | andThen p k ihp ihk =>
    simp only [buildOption, build, ihp, ihk, bind_map_left, map_bind]
    congr 1
    funext x
    cases x <;> rfl
  | loop seed step ih =>
    have hround : ∀ t, optionRound (fun t => (step t).buildOption σ) t =
        exceptRound (fun t => (step t).result σ) t >>= Either.mapRight (host σ Except.toOption) := by
      intro t
      rw [optionRound, ih, bind_map_left, exceptRound, bind_assoc]
      congr 1
      funext x
      rcases x with e | (t' | b) <;> rfl
    change Prod.fst <$> iterate (optionRound _) seed =
      Except.toOption <$> Prod.fst <$> iterate (exceptRound _) seed
    rw [iterate_mapRight hround, Functor.map_map, Functor.map_map]
    rfl

end Program

/-- **The carriers agree on programs.** A program settles to `r` exactly if building
it as a result ends with `r`, from any state; and if it does, then as a result it
gives `r` and changes nothing, and as an action that is run it gives `r` and changes
only the trace. As an optional value it has a value exactly where the result is one. -/
theorem build_agrees [Tracing σ] :
    (∀ (p : Program ε handling α) (r : Except ε α) (s : σ),
      p.Settles r ↔ ∃ n, p.result σ n s = .value r s) ∧
    (∀ (p : Program ε handling α) (r : Except ε α), p.Settles r →
      Gives Eq (p.result σ) r ∧ Gives Noted (p.action σ).run r) ∧
    ∀ p : Program Unit false α, p.buildOption σ = Except.toOption <$> p.result σ := by
  refine ⟨fun p r s => ⟨fun h => ?_, ?_⟩, fun p r h => ?_, Program.buildOption_eq⟩
  · obtain ⟨n, hn⟩ := (h.gives_result (σ := σ)).ends.exists
    exact ⟨n, h.gives_result.eq_of_ne (hn s)⟩
  · rintro ⟨n, hn⟩
    have hne : p.result σ n s ≠ .exhausted := by simp [hn]
    obtain ⟨r', hr⟩ := p.exists_settles hne
    have hr' := hr.gives_result.eq_of_ne hne
    rw [hn] at hr'
    cases hr'
    exact hr
  · exact ⟨h.gives_result, h.gives_action.run⟩

/-- Counts down from two; at zero it fails, and the failure is handled in the step. -/
def countdown : Program String true ℕ :=
  .loop 2 fun t => .tryCatch rfl (if t = 0 then .throw "zero" else .ofValue (.left (t - 1)))
    fun e => .ofValue (.right e.length)

theorem countdown_agrees : countdown.Settles (.ok 4) ∧
    Gives Eq (countdown.result (List Trace)) (.ok 4) ∧
    Gives Noted (countdown.action (List Trace)).run (.ok 4) := by
  have h : countdown.Settles (.ok 4) :=
    ⟨0, .head (.inl ⟨_, rfl, rfl⟩) (.single (.inl ⟨_, rfl, rfl⟩)), .inl ⟨4, .inr ⟨"zero", rfl, rfl⟩, rfl⟩⟩
  exact ⟨h, build_agrees.2.1 countdown (.ok 4) h⟩

end Deferral
