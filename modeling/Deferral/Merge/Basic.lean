import Deferral.Work

/-!
# Values that merge

`Mergeable α` says how two values of `α` become one; a merge may panic, as a sum does that is out
of range. `Unital α` adds a value that a merge is not meant to change. Lists of values are merged
from the left.

A `Merging` says which values are merged and how; `Merging.result` does it. `bracketings` and
`besideUnit` merge in the two ways that are meant to give the same value.

Main statements: `mergeAll_eq_reduce` and `reduce_nil`, folding from the unit and folding from the
first value agree where the unit is neutral on the left.
-/

namespace Deferral

/-- A type whose values merge. -/
class Mergeable (α : Type) where
  /-- Makes one value of two. -/
  merge : α → α → Checked α

/-- A type whose values merge, with a value to start from. -/
class Unital (α : Type) extends Mergeable α where
  /-- The value to start from. -/
  unit : α

export Mergeable (merge)

variable {α : Type}

/-- Merges the values of a list onto `a`, from the left. -/
def mergeFrom [Mergeable α] (a : α) : List α → Checked α
  | [] => .ok a
  | b :: bs =>
    match merge a b with
    | .ok c => mergeFrom c bs
    | .error p => .error p

/-- Merges all values of a list, from the unit. -/
def mergeAll [Unital α] (as : List α) : Checked α := mergeFrom Unital.unit as

/-- Merges all values of a list, from the first. An empty list gives none. -/
def reduce [Mergeable α] : List α → Checked (Option α)
  | [] => .ok none
  | a :: as => some <$> mergeFrom a as

/-- Merges `b` onto `a`, `n` times. -/
def mergeRepeatedly [Mergeable α] (b : α) : Nat → α → Checked α
  | 0, a => .ok a
  | n + 1, a =>
    match merge a b with
    | .ok c => mergeRepeatedly b n c
    | .error p => .error p

/-- Merges `n` copies of a value. There is nothing to give for no copy. -/
def mergeTimes [Mergeable α] (a : α) : Nat → Checked α
  | 0 => .error (.text "combine_n requires count > 0")
  | n + 1 => mergeRepeatedly a n a

/-- Texts are put behind each other. -/
instance : Unital String where
  merge s t := .ok (s ++ t)
  unit := ""

instance : Unital Unit where
  merge _ _ := .ok ()
  unit := ()

/-- Arrays are put behind each other. -/
instance : Unital (Array α) where
  merge s t := .ok (s ++ t)
  unit := #[]

/-- Merges what is there. -/
def mergeOptions [Mergeable α] : Option α → Option α → Checked (Option α)
  | some a, some b => some <$> merge a b
  | some a, none => .ok (some a)
  | none, b => .ok b

/-- Two present values merge, and an absent one changes nothing. -/
instance [Mergeable α] : Unital (Option α) where
  merge := mergeOptions
  unit := none

@[simp] theorem reduce_nil [Mergeable α] : reduce ([] : List α) = .ok none := rfl

/-- To start from a unit that is neutral on the left is to start from the first value. -/
theorem mergeAll_eq_reduce [Unital α] {a : α} (as : List α) (h : merge Unital.unit a = .ok a) :
    some <$> mergeAll (a :: as) = reduce (a :: as) := by
  simp [mergeAll, mergeFrom, reduce, h]

/-! ## Merging some values -/

/-- Which values are merged, and how. -/
inductive Merging (α : Type) where
  | unit
  | pair (a b : α)
  | times (a : α) (n : Nat)
  | all (as : List α)
  | reduced (as : List α)

/-- What merging gives: a value, or perhaps one. -/
inductive Merged (α : Type) where
  | one (a : α)
  | perhaps (a : Option α)

variable {β : Type}

/-- Applies a function to the value, if there is one. -/
def Merged.mapM {m : Type → Type} [Monad m] (f : α → m β) : Merged α → m (Merged β)
  | one a => one <$> f a
  | perhaps none => return perhaps none
  | perhaps (some a) => (fun b => perhaps (some b)) <$> f a

/-- Merges. -/
def Merging.result [Unital α] : Merging α → Checked (Merged α)
  | unit => .ok (.one Unital.unit)
  | pair a b => .one <$> merge a b
  | times a n => .one <$> mergeTimes a n
  | all as => .one <$> mergeAll as
  | reduced as => .perhaps <$> reduce as

/-- Merges three values with the left two first, and with the right two first. -/
def bracketings [Mergeable α] (a b c : α) : Checked (α × α) := do
  let ab ← merge a b
  let l ← merge ab c
  let bc ← merge b c
  let r ← merge a bc
  return (l, r)

/-- Merges a value with the unit on the left, and on the right. -/
def besideUnit [Unital α] (a : α) : Checked (α × α) := do
  let l ← merge Unital.unit a
  let r ← merge a Unital.unit
  return (l, r)

end Deferral
