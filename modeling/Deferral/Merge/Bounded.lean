import Deferral.Work

/-!
# Bounded integers

`Bounded k` holds the integers of a kind `k`: of 8 to 128 bits, with a sign or without. Sums and
products out of range panic.

Main statements: `add_eq_ok_iff` and `mul_eq_ok_iff`, the operations give exact results or none.
-/

namespace Deferral

/-- How many bits an integer has. -/
inductive Width where
  | w8 | w16 | w32 | w64 | w128
  deriving DecidableEq

/-- The number of bits. -/
def Width.bits : Width → Nat
  | w8 => 8
  | w16 => 16
  | w32 => 32
  | w64 => 64
  | w128 => 128

/-- How many integers there are of so many bits. -/
def Width.count (w : Width) : Nat := Nat.pow 2 w.bits

/-- A kind of bounded integers. -/
structure IntKind where
  signed : Bool
  width : Width
  deriving DecidableEq

namespace IntKind

/-- The lowest integer of the kind. -/
def lo (k : IntKind) : Int := if k.signed then -(k.width.count / 2) else 0

/-- The highest integer of the kind. -/
def hi (k : IntKind) : Int := if k.signed then k.width.count / 2 - 1 else k.width.count - 1

theorem lo_le_zero : ∀ k : IntKind, k.lo ≤ 0
  | ⟨s, w⟩ => by cases s <;> cases w <;> decide

theorem one_le_hi : ∀ k : IntKind, 1 ≤ k.hi
  | ⟨s, w⟩ => by cases s <;> cases w <;> decide

end IntKind

/-- An integer of a kind. -/
structure Bounded (k : IntKind) where
  val : Int
  lo_le : k.lo ≤ val
  le_hi : val ≤ k.hi
  deriving DecidableEq

namespace Bounded

variable {k : IntKind}

/-- The integer of the kind with this value, if there is one. -/
def ofInt? (k : IntKind) (n : Int) : Option (Bounded k) :=
  if h : k.lo ≤ n ∧ n ≤ k.hi then some ⟨n, h.1, h.2⟩ else none

/-- Zero is of every kind. -/
def zero : Bounded k := ⟨0, k.lo_le_zero, Int.le_trans (by decide) k.one_le_hi⟩

/-- One is of every kind. -/
def one : Bounded k := ⟨1, Int.le_trans k.lo_le_zero (by decide), k.one_le_hi⟩

instance : Inhabited (Bounded k) := ⟨zero⟩

/-- An exact result, or a panic if it is out of range. -/
def exactly (k : IntKind) (n : Int) (complaint : String) : Checked (Bounded k) :=
  match ofInt? k n with
  | some a => .ok a
  | none => .error (.text complaint)

/-- The exact sum. -/
def add (a b : Bounded k) : Checked (Bounded k) :=
  exactly k (a.val + b.val) "attempt to add with overflow"

/-- The exact product. -/
def mul (a b : Bounded k) : Checked (Bounded k) :=
  exactly k (a.val * b.val) "attempt to multiply with overflow"

/-- An exact result is there exactly if an integer of the kind has its value. -/
theorem exactly_eq_ok_iff {n : Int} {complaint : String} {c : Bounded k} :
    exactly k n complaint = .ok c ↔ c.val = n := by
  unfold exactly ofInt?
  by_cases h : k.lo ≤ n ∧ n ≤ k.hi
  · rw [dif_pos h]
    exact ⟨fun e => by cases e; rfl, fun e => by subst e; rfl⟩
  · rw [dif_neg h]
    exact ⟨nofun, fun e => absurd (e ▸ ⟨c.lo_le, c.le_hi⟩) h⟩

theorem add_eq_ok_iff {a b c : Bounded k} : a.add b = .ok c ↔ c.val = a.val + b.val :=
  exactly_eq_ok_iff

theorem mul_eq_ok_iff {a b c : Bounded k} : a.mul b = .ok c ↔ c.val = a.val * b.val :=
  exactly_eq_ok_iff

end Bounded
end Deferral
