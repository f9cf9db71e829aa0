import Deferral.Ranked
import Deferral.Work

/-!
# Two-sided values

`Either α β` holds a left or a right payload. The sides are equals: `swap` is an involution
(`swap_swap`), and the reading as a result, right for success and left for failure, loses nothing
(`ofExcept_toExcept`).

In order, left values come before right ones, and values on one side compare as their payloads do.
Sorting loses nothing and adds nothing (`sort_perm`), and `rankNeighbours` compares each value of a
list with the one that follows it (`rankNeighbours_eq_zipWith`).
-/

namespace Deferral

/-- A value on one of two sides. -/
inductive Either (α β : Type) where
  | left (a : α)
  | right (b : β)
  deriving DecidableEq

namespace Either

variable {α β γ δ : Type} {m : Type → Type} [Monad m]

/-- The value is on the left. -/
def isLeft : Either α β → Bool
  | left _ => true
  | right _ => false

/-- The value is on the right. -/
def isRight : Either α β → Bool
  | left _ => false
  | right _ => true

/-- The left payload, if there is one. -/
def left? : Either α β → Option α
  | left a => some a
  | right _ => none

/-- The right payload, if there is one. -/
def right? : Either α β → Option β
  | left _ => none
  | right b => some b

/-- Applies the function of the side that is taken. -/
def fold (onLeft : α → m γ) (onRight : β → m γ) : Either α β → m γ
  | left a => onLeft a
  | right b => onRight b

/-- Changes a left payload and keeps a right one. -/
def mapLeft (f : α → m γ) : Either α β → m (Either γ β)
  | left a => left <$> f a
  | right b => pure (right b)

/-- Changes a right payload and keeps a left one. -/
def mapRight (f : β → m γ) : Either α β → m (Either α γ)
  | left a => pure (left a)
  | right b => right <$> f b

/-- The same payload on the other side. -/
def swap : Either α β → Either β α
  | left a => right a
  | right b => left b

/-- Right is success, left is failure. -/
def toExcept : Either α β → Except α β
  | left a => .error a
  | right b => .ok b

/-- Success is right, failure is left. -/
def ofExcept : Except α β → Either α β
  | .error a => left a
  | .ok b => right b

/-- Swapping twice changes nothing. -/
@[simp] theorem swap_swap (e : Either α β) : e.swap.swap = e := by cases e <;> rfl

/-- The reading as a result can be undone. -/
@[simp] theorem ofExcept_toExcept (e : Either α β) : ofExcept e.toExcept = e := by cases e <;> rfl

/-- A result that was read as a two-sided value is the same result. -/
@[simp] theorem toExcept_ofExcept (r : Except α β) : (ofExcept r).toExcept = r := by cases r <;> rfl

@[simp] theorem isRight_eq_not_isLeft (e : Either α β) : e.isRight = !e.isLeft := by cases e <;> rfl

/-! ## Order -/

section Order

variable [Ranked α] [Ranked β]

/-- How two sided values compare. -/
def rankSides : Either α β → Either α β → Ordering
  | left a, left b => rank a b
  | left _, right _ => .lt
  | right _, left _ => .gt
  | right a, right b => rank a b

instance : Ranked (Either α β) := ⟨rankSides⟩

/-- The list in ascending order. -/
def sort (es : List (Either α β)) : List (Either α β) := es.mergeSort fun a b => (rank a b).isLE

/-- How each two neighbours of a list compare. -/
def rankNeighbours : List (Either α β) → List Ordering
  | a :: b :: es => rank a b :: rankNeighbours (b :: es)
  | _ => []

/-- The comparisons of a list's neighbours are those of the list with its own tail. -/
theorem rankNeighbours_eq_zipWith (es : List (Either α β)) :
    rankNeighbours es = List.zipWith rank es es.tail := by
  induction es with
  | nil => rfl
  | cons a es ih =>
    cases es with
    | nil => rfl
    | cons b es => exact congrArg (rank a b :: ·) ih

/-- Sorting permutes the list. -/
theorem sort_perm (es : List (Either α β)) : (sort es).Perm es := List.mergeSort_perm _ _

end Order
end Either
end Deferral
