import Deferral.Proofs.Copies
import Deferral.Proofs.Groupings
import Deferral.Proofs.Running

/-!
# Totals and products in brackets

Merging is meant to be associative, and for bounded integers it is so as far as it gives a value:
in whichever groups totals or products are merged, what does not panic is exact. But it may panic
in some groups only, as a sum that leaves the range in one group would have come back in another.
Where there are no signs, and no zeros among products, nothing comes back, so that either all
groupings panic or none does.

* `Reckons.merged_cases`: a grouping is exact, or it panics; by induction on the grouping.
* `Reckons.merged_answers`: it is the whole that counts, where no part leaves the range alone.
* `groupings_merge_exactly`: **groupings that do not panic agree**, and, without signs, panic alike.
-/

namespace Deferral

variable {α : Type} {k : IntKind} {value : α → ℤ} {exact : List α → ℤ} {complaint : String}
  [Unital α]

/-- A value of a grouping is exact, so it is that of any other grouping that gives one. -/
structure GroupsExactly (k : IntKind) (value : α → ℤ) (exact : List α → ℤ) (complaint : String)
    (t : Grouping α) : Prop where
  value_eq : ∀ c, t.merged = .ok c → value c = exact t.leaves
  agree : ∀ (u : Grouping α) (c d : α), u.leaves = t.leaves → t.merged = .ok c → u.merged = .ok d →
    c = d
  complains : ∀ p, t.merged = .error p → p = .text complaint

/-- A grouping panics where the exact result is out of range, and only there, as does the list
that is reduced from the left. -/
structure PanicsAlike (k : IntKind) (value : α → ℤ) (exact : List α → ℤ) (complaint : String)
    (t : Grouping α) : Prop where
  answers : Answers k value complaint (exact t.leaves) t.merged
  panics_iff : (∃ p, t.merged = .error p) ↔ ¬ k.Holds (exact t.leaves)
  reduce_eq : t.leaves ≠ [] → reduce t.leaves = some <$> t.merged
  reduce_panics_iff : t.leaves ≠ [] →
    ((∃ p, t.merged = .error p) ↔ ∃ p, reduce t.leaves = .error p)

namespace Reckons

variable (h : Reckons k value exact complaint)

include h

/-- Two values that stand for lists come to what the lists come to. -/
theorem exact_pair {a b : α} {as bs : List α} (ha : value a = exact as) (hb : value b = exact bs) :
    exact [a, b] = exact (as ++ bs) :=
  calc exact [a, b] = exact (as ++ [b]) := h.replace ha [] [b]
    _ = exact (as ++ bs ++ []) := h.replace hb as []
    _ = exact (as ++ bs) := by rw [List.append_nil]

/-- **A grouping is exact, or it panics** with some part of it out of range. -/
theorem merged_cases (t : Grouping α) :
    (∃ c, value c = exact t.leaves ∧ t.merged = .ok c) ∨
    t.merged = .error (.text complaint) ∧ ∃ part, part <:+: t.leaves ∧ ¬ k.Holds (exact part) := by
  -- on the grouping; a pair is merged on its left first, and its right is not reached if that
  -- panics
  induction t with
  | unit => exact .inl ⟨_, h.unit, rfl⟩
  | one b => exact .inl ⟨b, (h.singleton b).symm, rfl⟩
  | pair l r ihl ihr =>
    rw [Grouping.merged, Grouping.leaves]
    obtain ⟨a, ha, hl⟩ | ⟨hl, part, hpart, hout⟩ := ihl
    · obtain ⟨b, hb, hr⟩ | ⟨hr, part, hpart, hout⟩ := ihr
      · -- what is left is the merge of the two sides, which comes to what the whole comes to
        rw [hl, hr, ← h.exact_pair ha hb]
        by_cases hab : k.Holds (exact [a, b])
        · exact .inl ((h.merges a b).exact hab)
        · refine .inr ⟨(h.merges a b).panics hab, _, List.infix_rfl, ?_⟩
          rwa [← h.exact_pair ha hb]
      · rw [hl, hr]
        exact .inr ⟨rfl, part, hpart.trans (List.suffix_append _ _).isInfix, hout⟩
    · rw [hl]
      exact .inr ⟨rfl, part, hpart.trans (List.prefix_append _ _).isInfix, hout⟩

/-- What a grouping gives is exact. -/
theorem merged_value_eq {t : Grouping α} {c : α} (hc : t.merged = .ok c) :
    value c = exact t.leaves := by
  obtain ⟨d, hd, hok⟩ | ⟨hpanic, -⟩ := h.merged_cases t
  · cases hc.symm.trans hok
    exact hd
  · cases hc.symm.trans hpanic

/-- A grouping panics with one text only, that of its operation. -/
theorem merged_complains {t : Grouping α} {p : Payload} (hp : t.merged = .error p) :
    p = .text complaint := by
  obtain ⟨d, -, hok⟩ | ⟨hpanic, -⟩ := h.merged_cases t
  · cases hp.symm.trans hok
  · cases hp.symm.trans hpanic
    rfl

/-- Where the parts are in range if the whole is, it is the whole that counts. -/
theorem merged_answers {t : Grouping α} (hparts : PartsHold k exact t.leaves) :
    Answers k value complaint (exact t.leaves) t.merged := by
  obtain ⟨c, hc, hok⟩ | ⟨hpanic, part, hpart, hout⟩ := h.merged_cases t
  · exact ⟨fun _ => ⟨c, hc, hok⟩, fun hall => absurd (hc ▸ h.holds c) hall⟩
  · exact ⟨fun hall => absurd (hparts hall part hpart) hout, fun _ => hpanic⟩

/-- Two groupings of the same values that both give one give the same. -/
theorem groupsExactly (t : Grouping α) : GroupsExactly k value exact complaint t where
  value_eq _ hc := h.merged_value_eq hc
  agree u c d hleaves hc hd := by
    refine h.injective ?_
    rw [h.merged_value_eq hc, h.merged_value_eq hd, hleaves]
  complains _ hp := h.merged_complains hp

/-- Where the parts are in range if the whole is, all groupings of the same values end alike. -/
theorem panicsAlike {t : Grouping α} (hparts : PartsHold k exact t.leaves) :
    PanicsAlike k value exact complaint t := by
  have hanswers := h.merged_answers hparts
  have hreduce (hne : t.leaves ≠ []) : reduce t.leaves = some <$> t.merged := by
    -- both answer the exact result of the same list, and there is one outcome for each
    rw [h.reduce_eq hne, (h.mergeAll_answers hparts).eq h.injective hanswers]
  refine ⟨hanswers, hanswers.panics_iff, hreduce, fun hne => ?_⟩
  rw [hreduce hne]
  cases t.merged with
  | ok c => exact ⟨nofun, nofun⟩
  | error p => exact ⟨fun _ => ⟨p, rfl⟩, fun _ => ⟨p, rfl⟩⟩

end Reckons

/-- **Groupings that do not panic agree**: their value is the exact sum, or product, of what is
grouped. Where there are no signs, groupings of totals also panic alike, exactly where the sum is
out of range, and so do those of products that are not zero. -/
theorem groupings_merge_exactly (k : IntKind) :
    (∀ t : Grouping (Total (Bounded k)),
      GroupsExactly k Total.int Total.sum "attempt to add with overflow" t) ∧
    (∀ t : Grouping (Product (Bounded k)),
      GroupsExactly k Product.int Product.prod "attempt to multiply with overflow" t) ∧
    (k.signed = false →
      (∀ t : Grouping (Total (Bounded k)),
        PanicsAlike k Total.int Total.sum "attempt to add with overflow" t) ∧
      ∀ t : Grouping (Product (Bounded k)), (∀ a ∈ t.leaves, a.int ≠ 0) →
        PanicsAlike k Product.int Product.prod "attempt to multiply with overflow" t) :=
  ⟨(reckons_total k).groupsExactly, (reckons_product k).groupsExactly, fun hk =>
    ⟨fun t => (reckons_total k).panicsAlike (partsHold_sum hk t.leaves),
      fun _ hzero => (reckons_product k).panicsAlike (partsHold_prod hk hzero)⟩⟩

/-- Three values, with the left two in a group. -/
def leftFirst {β : Type} (a b c : β) : Grouping β := .pair (.pair (.one a) (.one b)) (.one c)

/-- Three values, with the right two in a group. -/
def rightFirst {β : Type} (a b c : β) : Grouping β := .pair (.one a) (.pair (.one b) (.one c))

/-- Three totals that just fit, in both groupings, and three products that do not. -/
theorem groupings_merge_bytes :
    (∃ c d, (leftFirst (Total.mk (byteOf 100)) ⟨byteOf 100⟩ ⟨byteOf 55⟩).merged = .ok c ∧
      (rightFirst (Total.mk (byteOf 100)) ⟨byteOf 100⟩ ⟨byteOf 55⟩).merged = .ok d ∧
      c = d ∧ c.int = 255) ∧
    byte.signed = false ∧
    (∀ a ∈ (rightFirst (Product.mk (byteOf 20)) ⟨byteOf 5⟩ ⟨byteOf 3⟩).leaves, a.int ≠ 0) ∧
    ¬ byte.Holds (Product.prod (rightFirst ⟨byteOf 20⟩ ⟨byteOf 5⟩ ⟨byteOf 3⟩).leaves) ∧
    (rightFirst (Product.mk (byteOf 20)) ⟨byteOf 5⟩ ⟨byteOf 3⟩).merged =
      .error (.text "attempt to multiply with overflow") ∧
    ∃ p, reduce (rightFirst (Product.mk (byteOf 20)) ⟨byteOf 5⟩ ⟨byteOf 3⟩).leaves = .error p := by
  obtain ⟨htotals, -, hunsigned⟩ := groupings_merge_exactly byte
  have hzero : ∀ a ∈ (rightFirst (Product.mk (byteOf 20)) ⟨byteOf 5⟩ ⟨byteOf 3⟩).leaves,
      a.int ≠ 0 := by decide
  have hout : ¬ byte.Holds
      (Product.prod (rightFirst ⟨byteOf 20⟩ ⟨byteOf 5⟩ ⟨byteOf 3⟩).leaves) := by decide
  have hleft := htotals (leftFirst ⟨byteOf 100⟩ ⟨byteOf 100⟩ ⟨byteOf 55⟩)
  have hproducts := (hunsigned rfl).2 _ hzero
  exact ⟨⟨_, _, rfl, rfl, hleft.agree _ _ _ rfl rfl rfl, hleft.value_eq _ rfl⟩, rfl, hzero, hout,
    hproducts.answers.panics hout,
    (hproducts.reduce_panics_iff (List.cons_ne_nil _ _)).1 (hproducts.panics_iff.2 hout)⟩

/-- A total of a number between -128 and 127. -/
def signedTotal (n : ℤ) (h : signedByte.Holds n) : Total (Bounded signedByte) := ⟨⟨n, h.1, h.2⟩⟩

-- with signs one grouping may panic where the other does not
example : (leftFirst (signedTotal 100 (by decide)) (signedTotal 100 (by decide))
      (signedTotal (-100) (by decide))).merged = .error (.text "attempt to add with overflow") ∧
    (rightFirst (signedTotal 100 (by decide)) (signedTotal 100 (by decide))
      (signedTotal (-100) (by decide))).merged = .ok (signedTotal 100 (by decide)) := ⟨rfl, rfl⟩

end Deferral
