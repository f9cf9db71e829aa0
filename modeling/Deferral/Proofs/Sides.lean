import Deferral.Either.Order
import Deferral.Work
import Mathlib.Algebra.Group.Nat.Even

/-!
# Keeping track of the payload

A two-sided value that is swapped, changed on its sides, and taken to a result and back, holds one
payload all the while. The side on which it is depends on nothing but the number of swaps so far,
and a function is called if the payload is on its side, and only then.

`Turns` are such operations, between values of whatever types; `called` says which of their
functions concern a payload, by counting swaps, and `Through` what these make of it.

* `called_cons`: the functions that are called after the first operation are those of the side
  where it has led.
* `Turns.Follows.skip`, `Turns.Follows.call`: what one operation does, if it has no function for
  the payload and if it has one. `Turns.exists_follows` is the induction over the operations.
* `payload_is_tracked`: **the payload is where the swaps lead**, and passes the functions there.
-/

namespace Deferral

/-- A side of a two-sided value. -/
inductive Side where
  | left
  | right
  deriving DecidableEq

namespace Side

/-- The side across. -/
def other : Side → Side
  | left => right
  | right => left

/-- The side that is reached by a number of swaps: an even number leads back. -/
def after (s : Side) (n : ℕ) : Side := if Even n then s else s.other

theorem after_zero (s : Side) : s.after 0 = s := if_pos Even.zero

/-- A first swap leads across. -/
theorem after_add_one (s : Side) (n : ℕ) : s.after (n + 1) = s.other.after n := by
  -- by the parity of the swaps that are left
  by_cases hn : Even n
  · have hnext : ¬ Even (n + 1) := by rwa [Nat.even_add_one, not_not]
    rw [after, after, if_pos hn, if_neg hnext]
  · have hnext : Even (n + 1) := by rwa [Nat.even_add_one]
    rw [after, after, if_neg hn, if_pos hnext]
    cases s <;> rfl

end Side

/-- A payload of whatever type. -/
structure Held : Type 1 where
  {type : Type}
  payload : type

/-- A function between whatever types. -/
structure Change : Type 1 where
  {source : Type}
  {target : Type}
  apply : source → target

/-- What a payload becomes that is passed through functions, one after the other. -/
inductive Through : List Change → Held → Held → Prop where
  | nil (x : Held) : Through [] x x
  | cons {γ δ : Type} {fs : List Change} {y : Held} (f : γ → δ) (c : γ)
      (h : Through fs ⟨f c⟩ y) : Through (⟨f⟩ :: fs) ⟨c⟩ y

/-- Functions leave no choice of what the payload becomes. -/
theorem Through.unique {fs : List Change} {x y z : Held} (hy : Through fs x y)
    (hz : Through fs x z) : z = y := by
  induction hy with
  | nil x =>
    cases hz
    rfl
  | cons f c _ ih =>
    cases hz with
    | cons _ _ h => exact ih h

/-- What an operation does to the sides: it applies a function to what is on one of them, or swaps
them, or neither. -/
inductive Move : Type 1 where
  | change (s : Side) (f : Change)
  | swap
  | still

namespace Move

/-- The operation swaps the sides. -/
def isSwap : Move → Bool
  | swap => true
  | _ => false

/-- The function that the operation applies to what is on the side `s`. -/
def changeOn? (s : Side) : Move → Option Change
  | change t f => if t = s then some f else none
  | _ => none

/-- Where the operation leads what is on the side `s`. -/
def next (s : Side) : Move → Side
  | swap => s.other
  | _ => s

end Move

/-- How often the sides are swapped. -/
def swapsIn (ms : List Move) : ℕ := ms.countP Move.isSwap

/-- The functions that are applied to what starts on the side `s`, each with its place among the
operations: those of the side where the swaps before them have led. -/
def called (s : Side) (ms : List Move) : List (ℕ × Change) :=
  ms.zipIdx.filterMap fun (m, i) =>
    (m.changeOn? (s.after (swapsIn (ms.take i)))).map fun f => (i, f)

/-- The same functions, each one place later. -/
def later (fs : List (ℕ × Change)) : List (ℕ × Change) := fs.map fun c => (c.1 + 1, c.2)

section Called

variable {s : Side} {m : Move}

/-- The first operation leads on, and the swaps after it lead from there. -/
theorem after_swapsIn_cons (s : Side) (m : Move) (ms : List Move) :
    s.after (swapsIn (m :: ms)) = (m.next s).after (swapsIn ms) := by
  cases m with
  | swap =>
    have hone : swapsIn (.swap :: ms) = swapsIn ms + 1 := List.countP_cons_of_pos rfl
    rw [hone]
    exact s.after_add_one (swapsIn ms)
  | change | still => rfl

theorem called_cons (s : Side) (m : Move) (ms : List Move) :
    called s (m :: ms) =
      ((m.changeOn? s).map fun f => (0, f)).toList ++ later (called (m.next s) ms) := by
  -- the operations after the first one have places from one on, and their swaps start from where
  -- that has led
  have hrest : (ms.zipIdx 1).filterMap (fun (m', i) =>
        (m'.changeOn? (s.after (swapsIn ((m :: ms).take i)))).map fun f => (i, f)) =
      later (called (m.next s) ms) := by
    rw [later, called, List.map_filterMap, List.zipIdx_succ, List.filterMap_map]
    simp only [Function.comp_def, List.take_succ_cons, after_swapsIn_cons, Option.map_map]
  rw [called, List.zipIdx_cons, List.filterMap_cons, hrest]
  simp only [List.take_zero, swapsIn, List.countP_nil, Side.after_zero]
  cases m.changeOn? s <;> rfl

theorem called_skip (h : m.changeOn? s = none) (ms : List Move) :
    called s (m :: ms) = later (called (m.next s) ms) := by
  rw [called_cons, h]
  rfl

theorem called_call (s : Side) (f : Change) (ms : List Move) :
    called s (.change s f :: ms) = (0, f) :: later (called s ms) := by
  have hcall : (Move.change s f).changeOn? s = some f := if_pos rfl
  rw [called_cons, hcall]
  rfl

theorem map_snd_later (fs : List (ℕ × Change)) : (later fs).map Prod.snd = fs.map Prod.snd := by
  rw [later, List.map_map]
  rfl

end Called

namespace Either

variable {α β : Type}

/-- The side of a value. -/
def side : Either α β → Side
  | left _ => .left
  | right _ => .right

/-- The payload of a value, whichever its side. -/
def held : Either α β → Held
  | left a => ⟨a⟩
  | right b => ⟨b⟩

/-- All that can be read off a value tells of one payload, on one side. -/
inductive Reads (e : Either α β) : Side → Held → Prop where
  | left (a : α) (isLeft : e.isLeft = true) (isRight : e.isRight = false)
      (left? : e.left? = some a) (right? : e.right? = none)
      (fold : ∀ {m : Type → Type} [Monad m] {κ : Type} (l : α → m κ) (r : β → m κ),
        e.fold l r = l a) : Reads e .left ⟨a⟩
  | right (b : β) (isLeft : e.isLeft = false) (isRight : e.isRight = true)
      (left? : e.left? = none) (right? : e.right? = some b)
      (fold : ∀ {m : Type → Type} [Monad m] {κ : Type} (l : α → m κ) (r : β → m κ),
        e.fold l r = r b) : Reads e .right ⟨b⟩

theorem reads (e : Either α β) : e.Reads e.side e.held := by
  cases e with
  | left a => exact .left a rfl rfl rfl rfl fun _ _ => rfl
  | right b => exact .right b rfl rfl rfl rfl fun _ _ => rfl

end Either

/-- Operations on a two-sided value that give one again, one after the other. Their functions have
no effects. -/
inductive Turns : Type → Type → Type → Type → Type 1 where
  | done {α β : Type} : Turns α β α β
  | mapLeft {α β γ α' β' : Type} (f : α → γ) (rest : Turns γ β α' β') : Turns α β α' β'
  | mapRight {α β γ α' β' : Type} (f : β → γ) (rest : Turns α γ α' β') : Turns α β α' β'
  | swap {α β α' β' : Type} (rest : Turns β α α' β') : Turns α β α' β'
  /-- To a result and back. -/
  | viaExcept {α β α' β' : Type} (rest : Turns α β α' β') : Turns α β α' β'

namespace Turns

/-- What the operations do to the sides. -/
def moves {α β α' β' : Type} : Turns α β α' β' → List Move
  | done => []
  | mapLeft f rest => .change .left ⟨f⟩ :: rest.moves
  | mapRight f rest => .change .right ⟨f⟩ :: rest.moves
  | swap rest => .swap :: rest.moves
  | viaExcept rest => .still :: rest.moves

/-- Does the operations, of which the first has the place `i`. When a function is called, the
place of its operation is noted. -/
def run {m : Type → Type} [Monad m] (note : ℕ → m Unit) {α β α' β' : Type} :
    ℕ → Turns α β α' β' → Either α β → m (Either α' β')
  | _, done, e => return e
  | i, mapLeft f rest, e => do
    let e' ← e.mapLeft fun a => do
      note i
      return f a
    run note (i + 1) rest e'
  | i, mapRight f rest, e => do
    let e' ← e.mapRight fun b => do
      note i
      return f b
    run note (i + 1) rest e'
  | i, swap rest, e => run note (i + 1) rest e.swap
  | i, viaExcept rest, e => run note (i + 1) rest (.ofExcept e.toExcept)

/-- Notes the places of some functions, if the first operation has the place `i`. -/
def noteAll {m : Type → Type} [Monad m] (note : ℕ → m Unit) (i : ℕ) (fs : List (ℕ × Change)) :
    m Unit := fs.forM fun c => note (i + c.1)

variable {α β γ δ α' β' : Type}

/-- The operations make `e'` of `e`: the payload goes where the swaps lead, through the functions
that are called on the way, and there are no other calls. -/
structure Follows (w : Turns α β α' β') (e : Either α β) (e' : Either α' β') : Prop where
  side_eq : e'.side = e.side.after (swapsIn w.moves)
  through : Through ((called e.side w.moves).map Prod.snd) e.held e'.held
  run_eq : ∀ (m : Type → Type) [Monad m] [LawfulMonad m] (note : ℕ → m Unit) (i : ℕ),
    run note i w e = (noteAll note i (called e.side w.moves) >>= fun _ => pure e')

/-- To be one place later is to be noted from one place later on. -/
theorem noteAll_later {m : Type → Type} [Monad m] (note : ℕ → m Unit) (i : ℕ)
    (fs : List (ℕ × Change)) : noteAll note i (later fs) = noteAll note (i + 1) fs := by
  induction fs with
  | nil => rfl
  | cons c fs ih =>
    have hplace : i + (c.1 + 1) = i + 1 + c.1 := by omega
    change (note (i + (c.1 + 1)) >>= fun _ => noteAll note i (later fs)) = _
    rw [hplace, ih]
    rfl

namespace Follows

variable {w : Turns α β α' β'} {rest : Turns γ δ α' β'} {e : Either α β} {e₁ : Either γ δ}
  {e' : Either α' β'}

theorem done (e : Either α β) : Follows .done e e where
  side_eq := e.side.after_zero.symm
  through := .nil e.held
  run_eq m _ _ note i := by
    rw [run]
    exact (pure_bind (m := m) () fun _ => pure e).symm

/-- The first operation has no function for the payload. -/
theorem skip {move : Move} (h : rest.Follows e₁ e') (hmoves : w.moves = move :: rest.moves)
    (hskip : move.changeOn? e.side = none) (hside : e₁.side = move.next e.side)
    (hheld : e₁.held = e.held)
    (hrun : ∀ (m : Type → Type) [Monad m] [LawfulMonad m] (note : ℕ → m Unit) (i : ℕ),
      run note i w e = run note (i + 1) rest e₁) : w.Follows e e' := by
  have hcalled : called e.side w.moves = later (called e₁.side rest.moves) := by
    rw [hmoves, called_skip hskip, hside]
  refine ⟨?_, ?_, fun m _ _ note i => ?_⟩
  · rw [h.side_eq, hmoves, after_swapsIn_cons, hside]
  · rw [hcalled, map_snd_later, ← hheld]
    exact h.through
  · rw [hrun, h.run_eq, hcalled, noteAll_later]

/-- The first operation has a function for the payload. -/
theorem call {κ μ : Type} {f : κ → μ} {c : κ} (h : rest.Follows e₁ e')
    (hmoves : w.moves = .change e.side ⟨f⟩ :: rest.moves) (hside : e₁.side = e.side)
    (hheld : e.held = ⟨c⟩) (hheld₁ : e₁.held = ⟨f c⟩)
    (hrun : ∀ (m : Type → Type) [Monad m] [LawfulMonad m] (note : ℕ → m Unit) (i : ℕ),
      run note i w e = (note i >>= fun _ => run note (i + 1) rest e₁)) : w.Follows e e' := by
  have hcalled : called e.side w.moves = (0, ⟨f⟩) :: later (called e₁.side rest.moves) := by
    rw [hmoves, called_call, hside]
  refine ⟨?_, ?_, fun m _ _ note i => ?_⟩
  · rw [h.side_eq, hmoves, after_swapsIn_cons, hside]
    rfl
  · rw [hcalled, List.map_cons, map_snd_later, hheld]
    refine .cons f c ?_
    rw [← hheld₁]
    exact h.through
  -- the first call is noted before all others, at the place of its operation
  · rw [hrun, hcalled]
    change _ = (note i >>= fun _ => noteAll note i (later (called e₁.side rest.moves))) >>= _
    rw [bind_assoc, noteAll_later]
    exact bind_congr fun _ => h.run_eq m note (i + 1)

end Follows

/-- **Every sequence of operations has a result**, by induction on the operations; where one has a
function it is the side of the payload that decides. -/
theorem exists_follows (w : Turns α β α' β') (e : Either α β) : ∃ e', w.Follows e e' := by
  induction w with
  | done => exact ⟨e, .done e⟩
  | mapLeft f rest ih =>
    cases e with
    | left a =>
      obtain ⟨e', h⟩ := ih (.left (f a))
      exact ⟨e', h.call rfl rfl rfl rfl fun m _ _ note i => by simp [run, Either.mapLeft]⟩
    | right b =>
      obtain ⟨e', h⟩ := ih (.right b)
      exact ⟨e', h.skip rfl rfl rfl rfl fun m _ _ note i => by simp [run, Either.mapLeft]⟩
  | mapRight f rest ih =>
    cases e with
    | left a =>
      obtain ⟨e', h⟩ := ih (.left a)
      exact ⟨e', h.skip rfl rfl rfl rfl fun m _ _ note i => by simp [run, Either.mapRight]⟩
    | right b =>
      obtain ⟨e', h⟩ := ih (.right (f b))
      exact ⟨e', h.call rfl rfl rfl rfl fun m _ _ note i => by simp [run, Either.mapRight]⟩
  | swap rest ih =>
    obtain ⟨e', h⟩ := ih e.swap
    exact ⟨e', h.skip rfl rfl (by cases e <;> rfl) (by cases e <;> rfl) fun _ _ _ _ _ => rfl⟩
  | viaExcept rest ih =>
    obtain ⟨e', h⟩ := ih e
    have hmoves : (viaExcept rest).moves = .still :: rest.moves := rfl
    refine ⟨e', h.skip hmoves rfl rfl rfl fun m _ _ note i => ?_⟩
    rw [run, Either.ofExcept_toExcept]

end Turns

variable {α β α' β' : Type}

/-- **The payload is where the swaps lead.** Whatever operations are done on a two-sided value, the
result is on the side where it started if the swaps are even in number, and across if they are odd.
Its payload is the one at the start, passed through the functions of the side on which it is at
the time, in order. No other function is called, and these are called once, as is seen from what
their calls note, whatever that does. All that can be read off the result tells of that payload on
that side. -/
theorem payload_is_tracked (w : Turns α β α' β') (e : Either α β) :
    ∃ (e' : Either α' β') (x : Held), e'.Reads (e.side.after (swapsIn w.moves)) x ∧
      (∀ y, Through ((called e.side w.moves).map Prod.snd) e.held y ↔ y = x) ∧
      ∀ (m : Type → Type) [Monad m] [LawfulMonad m] (note : ℕ → m Unit),
        w.run note 0 e = do
          (called e.side w.moves).forM fun c => note c.1
          return e' := by
  obtain ⟨e', h⟩ := w.exists_follows e
  refine ⟨e', e'.held, h.side_eq ▸ e'.reads, fun y => ⟨h.through.unique, ?_⟩, ?_⟩
  · rintro rfl
    exact h.through
  · intro m _ _ note
    rw [h.run_eq, Turns.noteAll]
    simp only [Nat.zero_add]

/-- A value that starts on the left and ends there, after two swaps and a change of types. -/
def roundabout : Turns ℕ String ℕ ℕ :=
  .mapLeft (· + 1) <| .mapRight String.length <| .swap <| .viaExcept <| .mapLeft (· * 100) <|
    .mapRight (fun n => [n, n]) <| .swap <| .mapLeft List.length .done

/-- Lists the places of the calls, and panics if they are not on the way. -/
def onTheWay (i : ℕ) : Work (List ℕ) Unit :=
  if i = 1 ∨ i = 4 then Work.panic .mute else Work.update (· ++ [i])

theorem payload_is_tracked_roundabout :
    ∃ e, e.left? = some 2 ∧ e.right? = none ∧
      roundabout.run onTheWay 0 (.left 5) 0 [] = .value e [0, 5, 7] := by
  obtain ⟨e, x, hreads, hthrough, hrun⟩ := payload_is_tracked roundabout (.left 5)
  have hx : (⟨2⟩ : Held) = x := (hthrough ⟨2⟩).1 (.cons _ 5 (.cons _ 6 (.cons _ [6, 6] (.nil _))))
  have hside : (Either.left 5 : Either ℕ String).side.after (swapsIn roundabout.moves) = .left := by
    decide
  rw [hside, ← hx] at hreads
  cases hreads with
  | left _ _ _ hleft hright _ =>
    refine ⟨e, hleft, hright, ?_⟩
    rw [hrun]
    rfl

end Deferral
