import Deferral.Text.Layout
import Deferral.Text.Quoted

/-!
# Orders

`Ranked α` orders the values of `α` by a comparison. Absent values come before present ones, texts
are ordered by their bytes, and lists of bytes as in a dictionary.

`Shown α` says how the values of `α` are shown. `compareValues` puts two values side by side: how
the left one is shown, whether they are equal, how they compare, and which one is the smaller.

Main statement: `bytesOf_inj`, a text is known by its bytes.
-/

namespace Deferral

/-- A type whose values have an order. -/
class Ranked (α : Type) where
  /-- How two values compare. -/
  rank : α → α → Ordering

export Ranked (rank)

variable {α : Type}

instance : Ranked Unit := ⟨fun _ _ => .eq⟩

instance : Ranked Int := ⟨compare⟩

instance : Ranked Int64 := ⟨fun a b => rank a.toInt b.toInt⟩

instance : Ranked UInt8 := ⟨fun a b => compare a.toNat b.toNat⟩

/-- How two optional values compare. -/
def rankOption [Ranked α] : Option α → Option α → Ordering
  | none, none => .eq
  | none, some _ => .lt
  | some _, none => .gt
  | some a, some b => rank a b

instance [Ranked α] : Ranked (Option α) := ⟨rankOption⟩

/-- How two lists compare: by the first place at which they differ, and a list is above those that
it continues. -/
def rankList [Ranked α] : List α → List α → Ordering
  | [], [] => .eq
  | [], _ :: _ => .lt
  | _ :: _, [] => .gt
  | a :: as, b :: bs => (rank a b).then (rankList as bs)

instance [Ranked α] : Ranked (List α) := ⟨rankList⟩

/-- The bytes of a text. -/
def bytesOf (s : String) : List UInt8 := s.toUTF8.data.toList

/-- A text is known by its bytes. -/
theorem bytesOf_inj {s t : String} : bytesOf s = bytesOf t ↔ s = t := by
  constructor
  · intro h
    exact String.toByteArray_inj.1 (ByteArray.ext (Array.toList_inj.1 h))
  · rintro rfl
    rfl

instance : Ranked String := ⟨fun s t => rank (bytesOf s) (bytesOf t)⟩

/-- The smaller of two values; the left one of two that are equal. -/
def least [Ranked α] (a b : α) : α := if rank a b = .gt then b else a

/-! ## Values side by side -/

/-- A type whose values can be shown. -/
class Shown (α : Type) where
  /-- How a value is shown. -/
  layout : α → Layout

instance : Shown Unit := ⟨fun _ => .atom "()"⟩

instance : Shown String := ⟨fun s => .atom (Text.quoted s)⟩

/-- How an optional value is shown. -/
def optionLayout [Shown α] : Option α → Layout
  | some a => .call "Some" [Shown.layout a]
  | none => .atom "None"

instance [Shown α] : Shown (Option α) := ⟨optionLayout⟩

/-- Two values side by side. -/
structure Comparison (α : Type) where
  /-- How the left value is shown. -/
  layout : Layout
  /-- The values are equal. -/
  equal : Bool
  order : Ordering
  /-- The smaller value; the left one of two that are equal. -/
  smaller : α

/-- Puts two values side by side. -/
def compareValues [Shown α] [DecidableEq α] [Ranked α] (a b : α) : Comparison α :=
  ⟨Shown.layout a, a == b, rank a b, least a b⟩

end Deferral
