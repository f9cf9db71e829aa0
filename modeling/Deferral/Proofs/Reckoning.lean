import Deferral.Merge.Kind
import Mathlib.Algebra.BigOperators.Group.List.Basic
import Mathlib.Algebra.Order.Ring.Int

/-!
# Merging as reckoning

Totals and products stand for integers, and merge by an operation on these: its result is exact,
or it is out of range, and then the merge panics. What follows from that alone holds of both, so
it is said once, of values that merge as `Reckons` says.

* `Answers`: an outcome that is exact, or complains.
* `reckons_total`, `reckons_product`: totals and products merge so.
* `Reckons.mergeFrom_fronts`: values are merged from the left as long as what is merged so far is
  in range; by induction on the list, with one lemma for a step within the range and one for a
  step out of it.
* `PartsHold`: lists whose parts are in range if the whole is. Where there are no signs these are
  all lists of totals (`partsHold_sum`) and the lists of products without a zero
  (`partsHold_prod`).
-/

namespace Deferral

variable {α β : Type} {k : IntKind} {value : α → ℤ} {complaint : String} {n : ℤ} {r s : Checked α}

/-- The integer is one of the kind. -/
def IntKind.Holds (k : IntKind) (n : ℤ) : Prop := k.lo ≤ n ∧ n ≤ k.hi

instance (k : IntKind) (n : ℤ) : Decidable (k.Holds n) := inferInstanceAs (Decidable (_ ∧ _))

/-- The outcome of a merge that comes to `n`: a value that stands for `n`, if there is one, or
else a panic. -/
structure Answers (k : IntKind) (value : α → ℤ) (complaint : String) (n : ℤ) (r : Checked α) :
    Prop where
  exact : k.Holds n → ∃ c, value c = n ∧ r = .ok c
  panics : ¬ k.Holds n → r = .error (.text complaint)

namespace Answers

/-- It panics where there is no exact value. -/
theorem panics_iff (h : Answers k value complaint n r) : (∃ p, r = .error p) ↔ ¬ k.Holds n := by
  refine ⟨fun ⟨p, hp⟩ hn => ?_, fun hn => ⟨_, h.panics hn⟩⟩
  obtain ⟨c, -, hc⟩ := h.exact hn
  cases hp.symm.trans hc

/-- There is one outcome for each integer. -/
theorem eq (hinj : value.Injective) (hr : Answers k value complaint n r)
    (hs : Answers k value complaint n s) : r = s := by
  -- in range both are the one value there is, out of range both are the same panic
  by_cases hn : k.Holds n
  · obtain ⟨c, hc, rfl⟩ := hr.exact hn
    obtain ⟨d, hd, rfl⟩ := hs.exact hn
    rw [hinj (hc.trans hd.symm)]
  · rw [hr.panics hn, hs.panics hn]

/-- To wrap the value leaves the integer. -/
theorem wrap {value' : β → ℤ} {f : α → β} (hf : ∀ a, value' (f a) = value a)
    (h : Answers k value complaint n r) : Answers k value' complaint n (f <$> r) where
  exact hn := by
    obtain ⟨c, hc, rfl⟩ := h.exact hn
    exact ⟨f c, (hf c).trans hc, rfl⟩
  panics hn := by rw [h.panics hn]; rfl

end Answers

namespace Bounded

/-- Each value is one of its own kind. -/
theorem holds_val (a : Bounded k) : k.Holds a.val := ⟨a.lo_le, a.le_hi⟩

/-- A value is its integer, with proofs. -/
theorem val_injective : (val : Bounded k → ℤ).Injective := by
  rintro ⟨m, _, _⟩ ⟨_, _, _⟩ rfl
  rfl

/-- The exact result of an operation, or its complaint. -/
theorem exactly_answers (k : IntKind) (n : ℤ) (complaint : String) :
    Answers k val complaint n (exactly k n complaint) where
  exact hn := ⟨⟨n, hn.1, hn.2⟩, rfl, exactly_eq_ok_iff.2 rfl⟩
  panics hn := by
    have hnone : ofInt? k n = none := dif_neg hn
    rw [exactly, hnone]

end Bounded

/-- The integer inside a total. -/
def Total.int (a : Total (Bounded k)) : ℤ := a.value.val

/-- The integer inside a product. -/
def Product.int (a : Product (Bounded k)) : ℤ := a.value.val

/-- The exact sum of some totals. -/
def Total.sum (as : List (Total (Bounded k))) : ℤ := (as.map int).sum

/-- The exact product of some products. -/
def Product.prod (as : List (Product (Bounded k))) : ℤ := (as.map int).prod

theorem Total.sum_append (as bs : List (Total (Bounded k))) :
    Total.sum (as ++ bs) = Total.sum as + Total.sum bs := by simp [Total.sum]

theorem Product.prod_append (as bs : List (Product (Bounded k))) :
    Product.prod (as ++ bs) = Product.prod as * Product.prod bs := by simp [Product.prod]

/-- How values merge that stand for the integers of a kind. `exact` is what a list of them comes
to, where any part of the list may be replaced by a value that stands for it. -/
structure Reckons (k : IntKind) (value : α → ℤ) (exact : List α → ℤ) (complaint : String)
    [Unital α] : Prop where
  injective : value.Injective
  holds (a : α) : k.Holds (value a)
  singleton (a : α) : exact [a] = value a
  replace {c : α} {part : List α} (h : value c = exact part) (before after : List α) :
    exact (before ++ c :: after) = exact (before ++ part ++ after)
  merges (a b : α) : Answers k value complaint (exact [a, b]) (merge a b)
  unit : value Unital.unit = exact []

/-- **Totals are reckoned as sums.** -/
theorem reckons_total (k : IntKind) :
    Reckons (α := Total (Bounded k)) k Total.int Total.sum "attempt to add with overflow" where
  injective := by
    rintro ⟨a⟩ ⟨b⟩ h
    exact congrArg Total.mk (Bounded.val_injective h)
  holds a := a.value.holds_val
  singleton a := by simp [Total.sum]
  replace h before after := by simp [Total.sum, h]
  merges a b := by
    have hsum : Total.sum [a, b] = a.value.val + b.value.val := by simp [Total.sum, Total.int]
    rw [hsum]
    exact (Bounded.exactly_answers k _ _).wrap fun _ => rfl
  unit := rfl

/-- **Products are reckoned as products.** -/
theorem reckons_product (k : IntKind) :
    Reckons (α := Product (Bounded k)) k Product.int Product.prod
      "attempt to multiply with overflow" where
  injective := by
    rintro ⟨a⟩ ⟨b⟩ h
    exact congrArg Product.mk (Bounded.val_injective h)
  holds a := a.value.holds_val
  singleton a := by simp [Product.prod]
  replace h before after := by simp [Product.prod, h]
  merges a b := by
    have hprod : Product.prod [a, b] = a.value.val * b.value.val := by
      simp [Product.prod, Product.int]
    rw [hprod]
    exact (Bounded.exactly_answers k _ _).wrap fun _ => rfl
  unit := rfl

section Lists

variable {exact : List α → ℤ}

/-- What stands at the front of the list is in range, however far one goes. -/
def FrontsHold (k : IntKind) (exact : List α → ℤ) (as : List α) : Prop :=
  ∀ front, front <+: as → k.Holds (exact front)

/-- If the list is in range, so is each part of it. -/
def PartsHold (k : IntKind) (exact : List α → ℤ) (as : List α) : Prop :=
  k.Holds (exact as) → ∀ part, part <:+: as → k.Holds (exact part)

/-- For such a list only the whole matters on the way from the left. -/
theorem PartsHold.frontsHold_iff {as : List α} (h : PartsHold k exact as) :
    FrontsHold k exact as ↔ k.Holds (exact as) :=
  ⟨fun hfronts => hfronts as List.prefix_rfl, fun hall _ hfront => h hall _ hfront.isInfix⟩

namespace Reckons

variable [Unital α] (h : Reckons k value exact complaint)

include h

/-- Nothing comes to what the unit stands for, which is in range. -/
theorem holds_nil : k.Holds (exact []) := h.unit ▸ h.holds Unital.unit

theorem holds_singleton (a : α) : k.Holds (exact [a]) := h.singleton a ▸ h.holds a

/-- The unit is neutral. -/
theorem exact_unit_cons (as : List α) : exact (Unital.unit :: as) = exact as :=
  h.replace h.unit [] as

/-- To start from the unit is to start from the first value. -/
theorem unit_merge (a : α) : merge Unital.unit a = .ok a := by
  have hmerge := h.merges Unital.unit a
  rw [h.exact_unit_cons, h.singleton] at hmerge
  -- the merge is exact, and only one value stands for the integer
  obtain ⟨c, hc, hok⟩ := hmerge.exact (h.holds a)
  rw [hok, h.injective hc]

/-- The front parts of a list that has a first value: nothing, or what has that value first. -/
theorem frontsHold_cons {a : α} {as : List α} :
    FrontsHold k exact (a :: as) ↔ ∀ front, front <+: as → k.Holds (exact (a :: front)) := by
  refine ⟨fun hfronts front hfront => hfronts _ (List.cons_prefix_cons.2 ⟨rfl, hfront⟩),
    fun hfronts front hfront => ?_⟩
  rcases List.prefix_cons_iff.1 hfront with rfl | ⟨front, rfl, hrest⟩
  · exact h.holds_nil
  · exact hfronts front hrest

/-- One value alone is never out of range. -/
theorem frontsHold_singleton (a : α) : FrontsHold k exact [a] := by
  rw [h.frontsHold_cons]
  intro front hfront
  rw [List.prefix_nil.1 hfront]
  exact h.holds_singleton a

/-- The unit at the front changes nothing on the way. -/
theorem frontsHold_unit_cons {as : List α} :
    FrontsHold k exact (Unital.unit :: as) ↔ FrontsHold k exact as := by
  rw [h.frontsHold_cons]
  simp only [h.exact_unit_cons]
  exact Iff.rfl

/-- One step within the range: the first two values may be replaced by what they merge into. -/
theorem mergeFrom_cons {a b : α} (hab : k.Holds (exact [a, b])) :
    ∃ c, (∀ bs, exact (c :: bs) = exact (a :: b :: bs)) ∧
      (∀ bs, FrontsHold k exact (c :: bs) ↔ FrontsHold k exact (a :: b :: bs)) ∧
      ∀ bs, mergeFrom a (b :: bs) = mergeFrom c bs := by
  obtain ⟨c, hc, hok⟩ := (h.merges a b).exact hab
  have hexact : ∀ bs, exact (c :: bs) = exact (a :: b :: bs) := h.replace hc []
  refine ⟨c, hexact, fun bs => ?_, fun bs => by rw [mergeFrom, hok]⟩
  simp only [h.frontsHold_cons, hexact]
  refine ⟨fun hfronts front hfront => ?_,
    fun hfronts front hfront => hfronts _ (List.cons_prefix_cons.2 ⟨rfl, hfront⟩)⟩
  -- before the step there is one front part more, and it is in range
  rcases List.prefix_cons_iff.1 hfront with rfl | ⟨front, rfl, hrest⟩
  · exact h.holds_singleton a
  · exact hfronts front hrest

/-- A step out of the range is the last. -/
theorem mergeFrom_cons_panics {a b : α} (hab : ¬ k.Holds (exact [a, b])) (bs : List α) :
    mergeFrom a (b :: bs) = .error (.text complaint) := by
  rw [mergeFrom, (h.merges a b).panics hab]

/-- **A list is merged to its exact result**, if all its front parts are in range. From one that is
not there is no way back: the merge panics, whatever follows. -/
theorem mergeFrom_fronts (a : α) (as : List α) :
    (FrontsHold k exact (a :: as) → ∃ c, value c = exact (a :: as) ∧ mergeFrom a as = .ok c) ∧
    (¬ FrontsHold k exact (a :: as) → mergeFrom a as = .error (.text complaint)) := by
  -- on the list, for any value merged so far, which stands for a front part of it
  induction as generalizing a with
  | nil =>
    exact ⟨fun _ => ⟨a, (h.singleton a).symm, rfl⟩,
      fun hout => absurd (h.frontsHold_singleton a) hout⟩
  | cons b bs ih =>
    by_cases hab : k.Holds (exact [a, b])
    · obtain ⟨c, hexact, hfronts, hstep⟩ := h.mergeFrom_cons hab
      rw [← hexact, ← hfronts, hstep]
      exact ih c
    · -- the first two values are a front part of the list themselves
      have hout : ¬ FrontsHold k exact (a :: b :: bs) :=
        fun hfronts => hab (hfronts [a, b] ⟨bs, rfl⟩)
      exact ⟨fun hfronts => absurd hfronts hout, fun _ => h.mergeFrom_cons_panics hab bs⟩

end Reckons
end Lists

section Unsigned

theorem IntKind.lo_eq_zero (hk : k.signed = false) : k.lo = 0 := by
  rw [IntKind.lo, hk]
  rfl

/-- Where no integer is negative, what is left of it is in range too. -/
theorem IntKind.Holds.of_le (hk : k.signed = false) {m n : ℤ} (hn : k.Holds n) (hm : 0 ≤ m)
    (hmn : m ≤ n) : k.Holds m :=
  ⟨k.lo_eq_zero hk ▸ hm, hmn.trans hn.2⟩

/-- Without a sign there is no negative sum. -/
theorem Total.sum_nonneg (hk : k.signed = false) (as : List (Total (Bounded k))) :
    0 ≤ Total.sum as := by
  induction as with
  | nil => exact le_rfl
  | cons a as ih =>
    have ha : k.lo ≤ a.int := a.value.lo_le
    rw [k.lo_eq_zero hk] at ha
    exact add_nonneg ha ih

/-- Without a sign and without a zero, a product is one or more. -/
theorem Product.one_le_prod (hk : k.signed = false) {as : List (Product (Bounded k))}
    (hzero : ∀ a ∈ as, a.int ≠ 0) : 1 ≤ Product.prod as := by
  induction as with
  | nil => exact le_rfl
  | cons a as ih =>
    have ha : k.lo ≤ a.int := a.value.lo_le
    rw [k.lo_eq_zero hk] at ha
    have hne := hzero a List.mem_cons_self
    have has := ih fun b hb => hzero b (List.mem_cons_of_mem a hb)
    exact one_le_mul_of_one_le_of_one_le (by omega) has

/-- Sums without a sign only grow. -/
theorem partsHold_sum (hk : k.signed = false) (as : List (Total (Bounded k))) :
    PartsHold k Total.sum as := by
  rintro hall part ⟨before, after, rfl⟩
  have hbefore := Total.sum_nonneg hk before
  have hafter := Total.sum_nonneg hk after
  -- the whole is the part with sums before and after it, neither of which is negative
  refine hall.of_le hk (Total.sum_nonneg hk part) ?_
  rw [Total.sum_append, Total.sum_append]
  omega

/-- Products without a sign only grow, if there is no zero among them. -/
theorem partsHold_prod (hk : k.signed = false) {as : List (Product (Bounded k))}
    (hzero : ∀ a ∈ as, a.int ≠ 0) : PartsHold k Product.prod as := by
  rintro hall part ⟨before, after, rfl⟩
  have hbefore : 1 ≤ Product.prod before :=
    Product.one_le_prod hk fun a ha => hzero a (by simp [ha])
  have hpart : 1 ≤ Product.prod part := Product.one_le_prod hk fun a ha => hzero a (by simp [ha])
  have hafter : 1 ≤ Product.prod after :=
    Product.one_le_prod hk fun a ha => hzero a (by simp [ha])
  refine hall.of_le hk (by omega) ?_
  rw [Product.prod_append, Product.prod_append]
  calc Product.prod part
      ≤ Product.prod before * Product.prod part := le_mul_of_one_le_left (by omega) hbefore
    _ ≤ Product.prod before * Product.prod part * Product.prod after :=
      le_mul_of_one_le_right (mul_nonneg (by omega) (by omega)) hafter

end Unsigned

end Deferral
