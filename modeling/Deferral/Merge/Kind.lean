import Deferral.Merge.Basic
import Deferral.Merge.Bounded
import Deferral.Ranked

/-!
# Numbers and kinds of values that merge

Numbers merge in two ways, so a number is wrapped to say which one is meant: a `Total` merges by
addition, a `Product` by multiplication. What is wrapped may be of any type for everything else: its
equality, its order and how it is shown are those of the value inside.

A `Kind` names a type of values that merge; `Kind.Elem` is that type.
-/

namespace Deferral

/-! ## Totals and products -/

/-- A type of numbers whose sums and products may panic. -/
class Number (α : Type) where
  /-- The sum of two numbers. -/
  add : α → α → Checked α
  /-- The product of two numbers. -/
  mul : α → α → Checked α
  zero : α
  one : α

instance {k : IntKind} : Number (Bounded k) := ⟨Bounded.add, Bounded.mul, .zero, .one⟩

instance : Number Float32 := ⟨fun a b => .ok (a + b), fun a b => .ok (a * b), 0, 1⟩

instance : Number Float := ⟨fun a b => .ok (a + b), fun a b => .ok (a * b), 0, 1⟩

/-- A value that merges by addition. -/
structure Total (α : Type) where
  value : α
  deriving DecidableEq

/-- A value that merges by multiplication. -/
structure Product (α : Type) where
  value : α
  deriving DecidableEq

variable {α : Type}

instance [Number α] : Unital (Total α) where
  merge a b := Total.mk <$> Number.add a.value b.value
  unit := ⟨Number.zero⟩

instance [Number α] : Unital (Product α) where
  merge a b := Product.mk <$> Number.mul a.value b.value
  unit := ⟨Number.one⟩

instance [Inhabited α] : Inhabited (Total α) := ⟨⟨default⟩⟩

instance {k : IntKind} : Ranked (Bounded k) := ⟨fun a b => rank a.val b.val⟩

instance [Ranked α] : Ranked (Total α) := ⟨fun a b => rank a.value b.value⟩

instance [Ranked α] : Ranked (Product α) := ⟨fun a b => rank a.value b.value⟩

instance {k : IntKind} : Shown (Bounded k) := ⟨fun a => .atom (toString a.val)⟩

instance [Shown α] : Shown (Total α) := ⟨fun a => .call "Sum" [Shown.layout a.value]⟩

instance [Shown α] : Shown (Product α) := ⟨fun a => .call "Product" [Shown.layout a.value]⟩

/-! ## Kinds -/

/-- The kinds of numbers. -/
inductive NumberKind where
  | int (k : IntKind)
  | single
  | double

/-- The numbers of a kind. -/
def NumberKind.Elem : NumberKind → Type
  | int k => Bounded k
  | single => Float32
  | double => Float

instance : (k : NumberKind) → Number k.Elem
  | .int k => inferInstanceAs (Number (Bounded k))
  | .single => inferInstanceAs (Number Float32)
  | .double => inferInstanceAs (Number Float)

/-- The kinds of values that merge. -/
inductive Kind where
  | text
  | unit
  | total (k : NumberKind)
  | product (k : NumberKind)
  | option (k : Kind)
  | array (k : Kind)

/-- The values of a kind. -/
def Kind.Elem : Kind → Type
  | text => String
  | unit => Unit
  | total k => Total k.Elem
  | product k => Product k.Elem
  | option k => Option k.Elem
  | array k => Array k.Elem

/-- How the values of a kind merge. -/
instance Kind.unital : (k : Kind) → Unital k.Elem
  | text => inferInstanceAs (Unital String)
  | unit => inferInstanceAs (Unital Unit)
  | total k => inferInstanceAs (Unital (Total k.Elem))
  | product k => inferInstanceAs (Unital (Product k.Elem))
  | option k =>
    have := k.unital
    inferInstanceAs (Unital (Option k.Elem))
  | array k => inferInstanceAs (Unital (Array k.Elem))

end Deferral
