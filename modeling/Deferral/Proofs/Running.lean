import Deferral.Proofs.Reckoning
import Mathlib.Algebra.BigOperators.Group.List.Lemmas
import Mathlib.Algebra.BigOperators.Ring.List
import Mathlib.Data.List.Infix

/-!
# Running totals and products

A list of totals is merged from the left, so what counts is not only what it comes to, but every
running total on the way: if all are in range the result is exact, and the first that is not makes
the merge panic, even if the rest would lead back, as a zero does for products. Where there are no
signs the running totals only grow, so that it is the total alone that counts.

* `Reckons.mergesExactly`: how a list is merged, from the unit and from the first value.
* `lists_merge_exactly`: **totals and products are exact, or they panic.**
-/

namespace Deferral

variable {α : Type} {k : IntKind} {value : α → ℤ} {exact : List α → ℤ} {complaint : String}

instance (k : IntKind) (exact : List α → ℤ) (as : List α) : Decidable (FrontsHold k exact as) :=
  decidable_of_iff (∀ front ∈ as.inits, k.Holds (exact front)) <|
    forall_congr' fun front => by rw [List.mem_inits]

/-- How a list is merged, from the unit and from the first value: exactly, if all that is merged
on the way is in range. -/
structure MergesExactly (k : IntKind) (value : α → ℤ) (exact : List α → ℤ) (complaint : String)
    [Unital α] (as : List α) : Prop where
  mergeAll_exact : FrontsHold k exact as → ∃ c, value c = exact as ∧ mergeAll as = .ok c
  mergeAll_panics : ¬ FrontsHold k exact as → mergeAll as = .error (.text complaint)
  reduce_exact : as ≠ [] → FrontsHold k exact as →
    ∃ c, value c = exact as ∧ reduce as = .ok (some c)
  reduce_panics : ¬ FrontsHold k exact as → reduce as = .error (.text complaint)

namespace Reckons

variable [Unital α] (h : Reckons k value exact complaint)

include h

/-- To start from the first value is to start from the unit. -/
theorem reduce_eq {as : List α} (has : as ≠ []) : reduce as = some <$> mergeAll as := by
  cases as with
  | nil => exact absurd rfl has
  | cons a as => exact (mergeAll_eq_reduce as (h.unit_merge a)).symm

/-- **A list is merged exactly**, as long as what is merged on the way is in range. -/
theorem mergesExactly (as : List α) : MergesExactly k value exact complaint as := by
  obtain ⟨hexact, hpanics⟩ := h.mergeFrom_fronts Unital.unit as
  rw [h.frontsHold_unit_cons, h.exact_unit_cons] at hexact
  rw [h.frontsHold_unit_cons] at hpanics
  -- from the unit this is known; from the first value it is the same, where there is one
  refine ⟨hexact, hpanics, fun has hfronts => ?_, fun hfronts => ?_⟩
  · obtain ⟨c, hc, hok⟩ := hexact hfronts
    have hall : mergeAll as = .ok c := hok
    refine ⟨c, hc, ?_⟩
    rw [h.reduce_eq has, hall]
    rfl
  · have has : as ≠ [] := by
      rintro rfl
      exact hfronts fun front hfront => List.prefix_nil.1 hfront ▸ h.holds_nil
    have hall : mergeAll as = .error (.text complaint) := hpanics hfronts
    rw [h.reduce_eq has, hall]
    rfl

/-- Where the parts are in range if the whole is, it is the whole that counts. -/
theorem mergeAll_answers {as : List α} (hparts : PartsHold k exact as) :
    Answers k value complaint (exact as) (mergeAll as) where
  exact hall := (h.mergesExactly as).mergeAll_exact (hparts.frontsHold_iff.2 hall)
  panics hall := (h.mergesExactly as).mergeAll_panics (mt hparts.frontsHold_iff.1 hall)

end Reckons

/-- What follows a front part that is out of range is of no help. -/
theorem MergesExactly.panics [Unital α] {as bs : List α}
    (h : MergesExactly k value exact complaint (as ++ bs)) (has : ¬ k.Holds (exact as)) :
    mergeAll (as ++ bs) = .error (.text complaint) ∧ reduce (as ++ bs) = .error (.text complaint) := by
  have hfronts : ¬ FrontsHold k exact (as ++ bs) := fun hfronts => has (hfronts as ⟨bs, rfl⟩)
  exact ⟨h.mergeAll_panics hfronts, h.reduce_panics hfronts⟩

theorem Product.prod_eq_zero {as : List (Product (Bounded k))} {b : Product (Bounded k)}
    (hb : b ∈ as) (hzero : b.int = 0) : Product.prod as = 0 :=
  List.prod_eq_zero (List.mem_map.2 ⟨b, hb, hzero⟩)

theorem Total.sum_perm {as bs : List (Total (Bounded k))} (h : as.Perm bs) :
    Total.sum as = Total.sum bs :=
  (h.map Total.int).sum_eq

/-- Where there are no signs the total decides what lists of totals merge into. -/
theorem Total.mergeAll_congr (hk : k.signed = false) {as bs : List (Total (Bounded k))}
    (h : Total.sum as = Total.sum bs) : mergeAll as = mergeAll bs := by
  have hr := reckons_total k
  have has := hr.mergeAll_answers (partsHold_sum hk as)
  rw [h] at has
  exact has.eq hr.injective (hr.mergeAll_answers (partsHold_sum hk bs))

/-- **Totals and products are exact, or they panic.** A list is merged to its exact sum, or its
exact product, if all its front parts are in range, and else it panics, also where a zero that
follows would make the product zero. Where there are no signs the sum alone decides what a list of
totals merges into, so their order does not matter. -/
theorem lists_merge_exactly (k : IntKind) :
    (∀ as : List (Total (Bounded k)),
      MergesExactly k Total.int Total.sum "attempt to add with overflow" as) ∧
    (∀ as : List (Product (Bounded k)),
      MergesExactly k Product.int Product.prod "attempt to multiply with overflow" as) ∧
    (∀ as bs : List (Product (Bounded k)), ¬ k.Holds (Product.prod as) →
      (∃ b ∈ bs, b.int = 0) → Product.prod (as ++ bs) = 0 ∧
        mergeAll (as ++ bs) = .error (.text "attempt to multiply with overflow") ∧
        reduce (as ++ bs) = .error (.text "attempt to multiply with overflow")) ∧
    (k.signed = false →
      (∀ as : List (Total (Bounded k)),
        Answers k Total.int "attempt to add with overflow" (Total.sum as) (mergeAll as)) ∧
      (∀ as bs : List (Total (Bounded k)), Total.sum as = Total.sum bs →
        mergeAll as = mergeAll bs ∧ (as ≠ [] → bs ≠ [] → reduce as = reduce bs)) ∧
      ∀ as bs : List (Total (Bounded k)), as.Perm bs →
        mergeAll as = mergeAll bs ∧ reduce as = reduce bs) := by
  have htotal := reckons_total k
  have hproduct := reckons_product k
  refine ⟨htotal.mergesExactly, hproduct.mergesExactly, ?_, fun hk => ⟨fun as => ?_, ?_, ?_⟩⟩
  · rintro as bs has ⟨b, hb, hzero⟩
    exact ⟨Product.prod_eq_zero (List.mem_append_right as hb) hzero,
      (hproduct.mergesExactly (as ++ bs)).panics has⟩
  · exact htotal.mergeAll_answers (partsHold_sum hk as)
  · intro as bs hsum
    have hall := Total.mergeAll_congr hk hsum
    refine ⟨hall, fun has hbs => ?_⟩
    rw [htotal.reduce_eq has, htotal.reduce_eq hbs, hall]
  · intro as bs hperm
    have hall := Total.mergeAll_congr hk (Total.sum_perm hperm)
    refine ⟨hall, ?_⟩
    by_cases has : as = []
    · subst has
      rw [hperm.nil_eq]
    · have hbs : bs ≠ [] := fun hbs => has (hbs ▸ hperm).eq_nil
      rw [htotal.reduce_eq has, htotal.reduce_eq hbs, hall]

/-- Integers of eight bits without a sign. -/
def byte : IntKind := ⟨false, .w8⟩

/-- The byte of a number below 256. -/
def byteOf (n : Fin 256) : Bounded byte where
  val := n
  lo_le := Int.natCast_nonneg n
  le_hi := Int.le_of_lt_add_one (Int.ofNat_lt.2 n.isLt)

/-- Sixteen times sixteen is out of range, so the zero comes too late; 200 and 56 are too much in
any order. -/
theorem lists_merge_bytes :
    FrontsHold byte Total.sum [⟨byteOf 200⟩, ⟨byteOf 50⟩, ⟨byteOf 5⟩] ∧
    reduce [Total.mk (byteOf 200), ⟨byteOf 50⟩, ⟨byteOf 5⟩] = .ok (some ⟨byteOf 255⟩) ∧
    ¬ byte.Holds (Product.prod [⟨byteOf 16⟩, ⟨byteOf 16⟩]) ∧
    mergeAll ([Product.mk (byteOf 16), ⟨byteOf 16⟩] ++ [⟨byteOf 0⟩]) =
      .error (.text "attempt to multiply with overflow") ∧
    byte.signed = false ∧ ¬ byte.Holds (Total.sum [⟨byteOf 200⟩, ⟨byteOf 0⟩, ⟨byteOf 56⟩]) ∧
    mergeAll [Total.mk (byteOf 200), ⟨byteOf 0⟩, ⟨byteOf 56⟩] =
      .error (.text "attempt to add with overflow") ∧
    mergeAll [Total.mk (byteOf 200), ⟨byteOf 0⟩, ⟨byteOf 56⟩] =
      mergeAll [⟨byteOf 56⟩, ⟨byteOf 200⟩, ⟨byteOf 0⟩] := by
  obtain ⟨htotals, -, hzero, hunsigned⟩ := lists_merge_exactly byte
  have hfronts : FrontsHold byte Total.sum [⟨byteOf 200⟩, ⟨byteOf 50⟩, ⟨byteOf 5⟩] := by decide
  have hout : ¬ byte.Holds (Product.prod [⟨byteOf 16⟩, ⟨byteOf 16⟩]) := by decide
  have hsum : ¬ byte.Holds (Total.sum [⟨byteOf 200⟩, ⟨byteOf 0⟩, ⟨byteOf 56⟩]) := by decide
  obtain ⟨hanswers, -, hperm⟩ := hunsigned rfl
  obtain ⟨⟨c⟩, hc, hreduce⟩ := (htotals _).reduce_exact (List.cons_ne_nil _ _) hfronts
  obtain rfl : c = byteOf 255 := Bounded.val_injective hc
  have hzero := hzero _ [⟨byteOf 0⟩] hout ⟨_, List.mem_singleton_self _, rfl⟩
  exact ⟨hfronts, hreduce, hout, hzero.2.1, rfl, hsum, (hanswers _).panics hsum,
    (hperm _ [⟨byteOf 56⟩, ⟨byteOf 200⟩, ⟨byteOf 0⟩] (by decide)).1⟩

end Deferral
