import Deferral.Proofs.Reckoning
import Mathlib.Algebra.Order.Ring.Abs
import Mathlib.Algebra.Order.Ring.Pow

/-!
# Copies of a value

To merge `n` copies of a total is to multiply it by `n`, and to merge `n` copies of a product is
to raise it to a power. This is done copy by copy, but what is in range at the end was in range on
the way:

* `IntKind.Holds.mul_of_le`: the multiples of an integer all lie on one side of zero.
* `IntKind.Holds.pow_of_le`: the powers of an integer get at least twice as large with each step,
  unless it is one of -1, 0 and 1. As the negative integers of a kind reach just one step further
  than the positive ones, no power before one that is in range can be out of it.
* `copies_merge_exactly`: **copies merge into multiples and powers.**
-/

namespace Deferral

variable {α : Type} {k : IntKind} {value : α → ℤ} {exact : List α → ℤ} {complaint : String}
  {a x y : ℤ} {m n : ℕ}

namespace IntKind

theorem holds_zero (k : IntKind) : k.Holds 0 := ⟨k.lo_le_zero, by have := k.one_le_hi; omega⟩

theorem holds_one (k : IntKind) : k.Holds 1 := ⟨by have := k.lo_le_zero; omega, k.one_le_hi⟩

/-- With signs there is one integer more below zero than there are above. -/
theorem lo_eq_neg (hk : k.signed = true) : k.lo = -(k.hi + 1) := by
  rw [lo, hi, if_pos hk, if_pos hk]
  omega

/-- What is between zero and an integer in range is in range. -/
theorem Holds.of_between (hy : k.Holds y) (hxy : 0 ≤ x ∧ x ≤ y ∨ y ≤ x ∧ x ≤ 0) : k.Holds x := by
  obtain ⟨hlo, hhi⟩ := hy
  have := k.lo_le_zero
  have := k.one_le_hi
  constructor <;> omega

/-- The smaller multiples of an integer are between zero and the larger ones. -/
theorem Holds.mul_of_le (hn : k.Holds (n * a)) (hmn : m ≤ n) : k.Holds (m * a) := by
  have hcast : (m : ℤ) ≤ n := Int.ofNat_le.2 hmn
  refine hn.of_between ?_
  -- with a sign, multiples go down from zero, and the last one is the lowest
  rcases le_total 0 a with ha | ha
  · exact .inl ⟨mul_nonneg (Int.natCast_nonneg m) ha, mul_le_mul_of_nonneg_right hcast ha⟩
  · exact .inr ⟨mul_le_mul_of_nonpos_right hcast ha,
      mul_nonpos_of_nonneg_of_nonpos (Int.natCast_nonneg m) ha⟩

/-- An integer at most half as large as one in range is in range, if it may have its sign. -/
theorem Holds.of_two_mul_abs_le (hy : k.Holds y) (hxy : 2 * |x| ≤ |y|)
    (hsign : k.signed = false → 0 ≤ x) : k.Holds x := by
  obtain ⟨hlo, hhi⟩ := hy
  have hpos := k.one_le_hi
  cases hk : k.signed with
  | false =>
    have hx := hsign hk
    rw [k.lo_eq_zero hk] at hlo
    rw [abs_of_nonneg hx, abs_of_nonneg hlo] at hxy
    exact ⟨k.lo_le_zero.trans hx, by omega⟩
  | true =>
    -- the absolute value of the lowest integer is one above the highest
    have hmax : |y| ≤ k.hi + 1 := by
      rw [abs_le, ← k.lo_eq_neg hk]
      exact ⟨hlo, by omega⟩
    have hx : |x| ≤ k.hi := by omega
    obtain ⟨hx₁, hx₂⟩ := abs_le.1 hx
    exact ⟨by rw [k.lo_eq_neg hk]; omega, hx₂⟩

/-- Powers of a large integer at least double. -/
theorem two_mul_abs_pow_le (ha : 2 ≤ |a|) (hmn : m < n) : 2 * |a ^ m| ≤ |a ^ n| := by
  rw [abs_pow, abs_pow]
  calc 2 * |a| ^ m ≤ |a| * |a| ^ m := mul_le_mul_of_nonneg_right ha (pow_nonneg (abs_nonneg a) m)
    _ = |a| ^ (m + 1) := (pow_succ' |a| m).symm
    _ ≤ |a| ^ n := pow_le_pow_right₀ (by omega) hmn

/-- The powers of a small integer are small. -/
theorem Holds.pow_of_abs_le_one (ha : k.Holds a) (hsmall : |a| ≤ 1) (m : ℕ) : k.Holds (a ^ m) := by
  obtain ⟨hlo, hhi⟩ := abs_le.1 hsmall
  -- there are three such integers, and the powers of each are known
  obtain rfl | rfl | rfl : a = -1 ∨ a = 0 ∨ a = 1 := by omega
  · rcases neg_one_pow_eq_or ℤ m with h | h <;> rw [h]
    · exact k.holds_one
    · exact ha
  · rw [zero_pow_eq]
    split
    · exact k.holds_one
    · exact k.holds_zero
  · rw [one_pow]
    exact k.holds_one

/-- The lower powers of an integer are in range if a higher one is. -/
theorem Holds.pow_of_le (ha : k.Holds a) (hn : k.Holds (a ^ n)) (hmn : m ≤ n) :
    k.Holds (a ^ m) := by
  rcases le_or_gt |a| 1 with hsmall | hlarge
  · exact ha.pow_of_abs_le_one hsmall m
  rcases hmn.eq_or_lt with rfl | hlt
  · exact hn
  -- an earlier power is at most half as large as the last, so it fits with either sign
  refine hn.of_two_mul_abs_le (two_mul_abs_pow_le hlarge hlt) fun hk => pow_nonneg ?_ m
  rw [← k.lo_eq_zero hk]
  exact ha.1

end IntKind

section Copies

variable [Mergeable α]

/-- Copies are merged one after the other. -/
theorem mergeRepeatedly_eq (b a : α) (n : ℕ) :
    mergeRepeatedly b n a = mergeFrom a (List.replicate n b) := by
  -- on the number of copies, for any value merged so far
  induction n generalizing a with
  | zero => rfl
  | succ n ih =>
    rw [mergeRepeatedly, List.replicate_succ, mergeFrom]
    cases merge a b with
    | ok c => exact ih c
    | error p => rfl

/-- The first copy is there before any other is merged. -/
theorem mergeTimes_succ_eq (a : α) (n : ℕ) :
    mergeTimes a (n + 1) = mergeFrom a (List.replicate n a) := mergeRepeatedly_eq a a n

/-- One more copy is merged last. -/
theorem mergeRepeatedly_succ (b a : α) (n : ℕ) :
    mergeRepeatedly b (n + 1) a = mergeRepeatedly b n a >>= fun c => merge c b := by
  induction n generalizing a with
  | zero =>
    change _ = merge a b
    rw [mergeRepeatedly]
    cases merge a b <;> rfl
  | succ n ih =>
    rw [mergeRepeatedly, mergeRepeatedly]
    cases merge a b with
    | ok c => exact ih c
    | error p => rfl

end Copies

/-- Copies merge exactly, if what is in range at the end is in range on the way. -/
theorem Reckons.mergeTimes_answers [Unital α] (h : Reckons k value exact complaint) {a : α}
    (hn : 1 ≤ n)
    (hway : k.Holds (exact (List.replicate n a)) → ∀ m ≤ n, k.Holds (exact (List.replicate m a))) :
    Answers k value complaint (exact (List.replicate n a)) (mergeTimes a n) := by
  obtain ⟨n, rfl⟩ := Nat.exists_eq_add_of_le' hn
  rw [mergeTimes_succ_eq]
  obtain ⟨hexact, hpanics⟩ := h.mergeFrom_fronts a (List.replicate n a)
  refine ⟨fun hall => hexact fun front hfront => ?_,
    fun hall => hpanics fun hfronts => hall (hfronts _ List.prefix_rfl)⟩
  have hfront : front <+: List.replicate (n + 1) a := hfront
  -- a front part of copies is a smaller number of copies
  obtain ⟨hle, heq⟩ := List.prefix_replicate_iff.1 hfront
  rw [heq]
  exact hway hall _ hle

theorem Total.sum_replicate (a : Total (Bounded k)) (n : ℕ) :
    Total.sum (List.replicate n a) = n * a.int := by
  rw [Total.sum, List.map_replicate, List.sum_replicate, nsmul_eq_mul]

theorem Product.prod_replicate (a : Product (Bounded k)) (n : ℕ) :
    Product.prod (List.replicate n a) = a.int ^ n := by
  rw [Product.prod, List.map_replicate, List.prod_replicate]

/-- So many copies of a total come to a multiple. -/
theorem Total.mergeTimes_answers (a : Total (Bounded k)) (hn : 1 ≤ n) :
    Answers k int "attempt to add with overflow" (n * a.int) (mergeTimes a n) := by
  have hcopies := (reckons_total k).mergeTimes_answers (a := a) hn fun hall m hmn => by
    rw [sum_replicate] at hall ⊢
    exact hall.mul_of_le hmn
  rwa [sum_replicate] at hcopies

/-- So many copies of a product come to a power. -/
theorem Product.mergeTimes_answers (a : Product (Bounded k)) (hn : 1 ≤ n) :
    Answers k int "attempt to multiply with overflow" (a.int ^ n) (mergeTimes a n) := by
  have hcopies := (reckons_product k).mergeTimes_answers (a := a) hn fun hall m hmn => by
    rw [prod_replicate] at hall ⊢
    exact ((reckons_product k).holds a).pow_of_le hall hmn
  rwa [prod_replicate] at hcopies

/-- **Copies merge into multiples and powers.** These are exact if they are in range, and then all
that comes before was in range too; else the merge panics. Whatever is merged, there is nothing to
give for no copy, one copy is the value, and one more copy is merged last. -/
theorem copies_merge_exactly (k : IntKind) :
    (∀ (a : Total (Bounded k)) (n : ℕ), 1 ≤ n →
      Answers k Total.int "attempt to add with overflow" (n * a.int) (mergeTimes a n) ∧
      (k.Holds (n * a.int) → ∀ m, 1 ≤ m → m ≤ n →
        ∃ c, c.int = m * a.int ∧ mergeTimes a m = .ok c)) ∧
    (∀ (a : Product (Bounded k)) (n : ℕ), 1 ≤ n →
      Answers k Product.int "attempt to multiply with overflow" (a.int ^ n) (mergeTimes a n) ∧
      (k.Holds (a.int ^ n) → ∀ m, 1 ≤ m → m ≤ n →
        ∃ c, c.int = a.int ^ m ∧ mergeTimes a m = .ok c)) ∧
    ∀ (α : Type) [Mergeable α] (a : α),
      mergeTimes a 0 = .error (.text "combine_n requires count > 0") ∧ mergeTimes a 1 = .ok a ∧
      ∀ n, 1 ≤ n → mergeTimes a (n + 1) = mergeTimes a n >>= fun c => merge c a := by
  refine ⟨fun a n hn => ⟨a.mergeTimes_answers hn, fun hall m hm hmn => ?_⟩,
    fun a n hn => ⟨a.mergeTimes_answers hn, fun hall m hm hmn => ?_⟩,
    fun α _ a => ⟨rfl, rfl, fun n hn => ?_⟩⟩
  · exact (a.mergeTimes_answers hm).exact (hall.mul_of_le hmn)
  · exact (a.mergeTimes_answers hm).exact (((reckons_product k).holds a).pow_of_le hall hmn)
  · obtain ⟨n, rfl⟩ := Nat.exists_eq_add_of_le' hn
    exact mergeRepeatedly_succ a a n

/-- Integers of eight bits with a sign. -/
def signedByte : IntKind := ⟨true, .w8⟩

/-- A product with a negative integer, of which a power is the lowest integer. -/
def minusTwo : Product (Bounded signedByte) := ⟨⟨-2, by decide, by decide⟩⟩

/-- The lowest total. -/
def lowest : Total (Bounded signedByte) := ⟨⟨-128, by decide, by decide⟩⟩

/-- The seventh power of -2 is the lowest integer, which is too low to be taken twice. -/
theorem copies_merge_lowest :
    signedByte.Holds (minusTwo.int ^ 7) ∧ minusTwo.int ^ 7 = signedByte.lo ∧
    (∃ c, c.int = minusTwo.int ^ 7 ∧ mergeTimes minusTwo 7 = .ok c) ∧
    (∃ c, c.int = minusTwo.int ^ 6 ∧ mergeTimes minusTwo 6 = .ok c) ∧
    ¬ signedByte.Holds (2 * lowest.int) ∧
    mergeTimes lowest 2 = .error (.text "attempt to add with overflow") := by
  obtain ⟨htotal, hproduct, -⟩ := copies_merge_exactly signedByte
  have hlowest : ¬ signedByte.Holds (2 * lowest.int) := by decide
  have hpower : signedByte.Holds (minusTwo.int ^ 7) := by decide
  obtain ⟨hanswers, hway⟩ := hproduct minusTwo 7 (by decide)
  exact ⟨hpower, by decide, hanswers.exact hpower, hway hpower 6 (by decide) (by decide), hlowest,
    (htotal lowest 2 (by decide)).1.panics hlowest⟩

end Deferral
