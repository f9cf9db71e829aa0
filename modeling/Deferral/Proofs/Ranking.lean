import Deferral.Either.Order
import Deferral.Merge.Kind
import Deferral.Proofs.Reckoning
import Mathlib.Data.Int.Order.Basic
import Mathlib.Logic.Function.Basic

/-!
# Two-sided values in ascending order

Two-sided values are totally ordered if the payloads on each side are, left values before right
ones. So there is one way to put a list of them in order: what is on the left in ascending order,
then what is on the right. Integers are ordered as such, and texts as their bytes in a dictionary.

* `TotallyRanked.of_key`: what compares by a key that tells values apart is totally ordered. For
  integers that is the integer itself, for texts the list of their bytes.
* `TotallyRanked.either`: so are two-sided values, by cases on the sides of three of them.
* `Either.sort_eq`: the sorted list, one side after the other; there is only one permutation of a
  list that is in order.
* `sides_sort_in_order`: **integers on the left and texts on the right, sorted.**
-/

namespace Deferral

variable {α β : Type}

/-- The comparison is a total order. -/
structure TotallyRanked (α : Type) [Ranked α] : Prop where
  eq_iff (a b : α) : rank a b = .eq ↔ a = b
  swap (a b : α) : rank b a = (rank a b).swap
  isLE_trans (a b c : α) : (rank a b).isLE → (rank b c).isLE → (rank a c).isLE

namespace TotallyRanked

/-- What compares by a key that tells values apart is in order if the keys are. -/
theorem of_key [Ranked α] {cmp : β → β → Ordering} [Std.TransCmp cmp] [Std.LawfulEqCmp cmp]
    {key : α → β} (hkey : key.Injective) (h : ∀ a b, rank a b = cmp (key a) (key b)) :
    TotallyRanked α where
  eq_iff a b := by
    rw [h, Std.LawfulEqCmp.compare_eq_iff_eq, hkey.eq_iff]
  swap a b := by
    rw [h, h]
    exact Std.OrientedCmp.eq_swap
  isLE_trans a b c hab hbc := by
    rw [h] at hab hbc ⊢
    exact Std.TransCmp.isLE_trans hab hbc

variable [Ranked α] [Ranked β] (ha : TotallyRanked α) (hb : TotallyRanked β)

include ha

theorem isLE_total (a b : α) : (rank a b).isLE ∨ (rank b a).isLE := by
  rw [ha.swap a b]
  cases rank a b <;> decide

theorem antisymm {a b : α} (hab : (rank a b).isLE) (hba : (rank b a).isLE) : a = b := by
  rw [ha.swap a b] at hba
  exact (ha.eq_iff a b).1 (Ordering.eq_eq_of_isLE_of_isLE_swap hab hba)

/-- Two values compare in one of three ways, from either end. -/
theorem trichotomy (a b : α) :
    (rank a b = .lt ∧ a ≠ b ∧ rank b a = .gt) ∨ (rank a b = .eq ∧ a = b ∧ rank b a = .eq) ∨
      (rank a b = .gt ∧ a ≠ b ∧ rank b a = .lt) := by
  rw [ha.swap a b, ne_eq, ← ha.eq_iff]
  cases rank a b <;> decide

theorem lt_trans {a b c : α} (hab : rank a b = .lt) (hbc : rank b c = .lt) : rank a c = .lt := by
  have hac : (rank a c).isLE :=
    ha.isLE_trans a b c (Ordering.isLE_of_eq_lt hab) (Ordering.isLE_of_eq_lt hbc)
  rcases Ordering.isLE_iff_eq_lt_or_eq_eq.1 hac with hlt | heq
  · exact hlt
  · -- equal ends would leave no room for what is between them
    rw [(ha.eq_iff a c).1 heq, ha.swap b c, hbc] at hab
    cases hab

include hb

/-- Left values come first, and on each side the payloads decide. -/
theorem either : TotallyRanked (Either α β) where
  eq_iff e f := by
    cases e <;> cases f
    case left.left a b =>
      rw [Either.left.injEq]
      exact ha.eq_iff a b
    case right.right a b =>
      rw [Either.right.injEq]
      exact hb.eq_iff a b
    -- on different sides they are neither equal nor compare so
    all_goals exact ⟨nofun, nofun⟩
  swap e f := by
    cases e <;> cases f
    case left.left a b => exact ha.swap a b
    case right.right a b => exact hb.swap a b
    all_goals rfl
  isLE_trans e f g := by
    cases e <;> cases f <;> cases g
    case left.left.left a b c => exact ha.isLE_trans a b c
    case right.right.right a b c => exact hb.isLE_trans a b c
    -- on mixed sides it is enough that left is before right, whatever the payloads
    all_goals first
      | exact fun _ _ => rfl
      | exact nofun

end TotallyRanked

section Texts

/-- Lists of bytes compare as in a dictionary. -/
theorem rank_bytes_eq (as bs : List UInt8) : rank as bs = compare as bs := by
  induction as generalizing bs with
  | nil => cases bs <;> rfl
  | cons a as ih =>
    cases bs with
    | nil => rfl
    | cons b bs =>
      rw [List.compare_cons_cons, UInt8.compare_eq_toNat_compare_toNat, ← ih]
      rfl

theorem rank_bytes_eq_lt_iff (as bs : List UInt8) : rank as bs = .lt ↔ as < bs := by
  induction as generalizing bs with
  | nil => cases bs <;> simp [rank, rankList]
  | cons a as ih =>
    cases bs with
    | nil => simp [rank, rankList]
    | cons b bs =>
      have hhead : (rank a b = .lt ↔ a < b) ∧ (rank a b = .eq ↔ a = b) := by
        constructor
        · rw [UInt8.lt_iff_toNat_lt]
          exact Nat.compare_eq_lt
        · rw [← UInt8.toNat_inj]
          exact Nat.compare_eq_eq
      rw [List.cons_lt_cons_iff, ← hhead.1, ← hhead.2, ← ih bs]
      exact Ordering.then_eq_lt

/-- Texts are in the order of their bytes, which tell them apart. -/
theorem totallyRanked_text : TotallyRanked String :=
  .of_key (fun _ _ => bytesOf_inj.1) fun s t => rank_bytes_eq (bytesOf s) (bytesOf t)

/-- Texts are in the order of a dictionary of bytes. -/
theorem rank_text_isLE_iff (s t : String) : (rank s t).isLE ↔ bytesOf s ≤ bytesOf t := by
  rw [← List.not_lt, ← rank_bytes_eq_lt_iff, Ordering.isLE_iff_ne_gt, totallyRanked_text.swap t s,
    Ordering.swap_eq_gt]
  rfl

end Texts

/-- Integers that compare as such. -/
structure RanksAsInt (value : α → ℤ) [Ranked α] : Prop where
  injective : value.Injective
  rank_eq (a b : α) : rank a b = compare (value a) (value b)

namespace RanksAsInt

variable [Ranked α] {value : α → ℤ}

theorem totallyRanked (h : RanksAsInt value) : TotallyRanked α := .of_key h.injective h.rank_eq

theorem isLE_iff (h : RanksAsInt value) (a b : α) : (rank a b).isLE ↔ value a ≤ value b := by
  rw [h.rank_eq, Std.isLE_compare]

theorem int64 : RanksAsInt Int64.toInt where
  injective _ _ := Int64.toInt_inj.1
  rank_eq _ _ := rfl

theorem bounded (k : IntKind) : RanksAsInt (Bounded.val : Bounded k → ℤ) where
  injective := Bounded.val_injective
  rank_eq _ _ := rfl

end RanksAsInt

/-- The list is in ascending order. -/
def Ascending [Ranked α] (as : List α) : Prop := as.Pairwise fun a b => (rank a b).isLE

section Sorting

variable [Ranked α] [Ranked β] (ha : TotallyRanked α) (hb : TotallyRanked β)

include ha in
theorem TotallyRanked.ascending_mergeSort (as : List α) :
    Ascending (as.mergeSort fun a b => (rank a b).isLE) :=
  List.pairwise_mergeSort ha.isLE_trans (fun a b => Bool.or_eq_true _ _ ▸ ha.isLE_total a b) as

include ha in
/-- There is only one way to put the same values in order. -/
theorem TotallyRanked.eq_of_perm {as bs : List α} (has : Ascending as) (hbs : Ascending bs)
    (hp : as.Perm bs) : as = bs :=
  hp.eq_of_pairwise (fun _ _ _ _ => ha.antisymm) has hbs

namespace Either

theorem ascending_sides {as : List α} {bs : List β} (has : Ascending as) (hbs : Ascending bs) :
    Ascending (as.map left ++ bs.map right : List (Either α β)) := by
  refine List.pairwise_append.2 ⟨List.pairwise_map.2 has, List.pairwise_map.2 hbs, ?_⟩
  intro e he f hf
  obtain ⟨a, -, rfl⟩ := List.mem_map.1 he
  obtain ⟨b, -, rfl⟩ := List.mem_map.1 hf
  rfl

/-- Taking the sides apart keeps each value. -/
theorem perm_sides {α β : Type} (es : List (Either α β)) :
    ((es.filterMap left?).map left ++ (es.filterMap right?).map right).Perm es := by
  -- on the list: a right value goes behind all left ones that follow it
  induction es with
  | nil => exact .nil
  | cons e es ih =>
    cases e with
    | left a => exact ih.cons _
    | right b => exact List.perm_middle.trans (ih.cons _)

theorem ascending_sort (h : TotallyRanked (Either α β)) (es : List (Either α β)) :
    Ascending (sort es) := h.ascending_mergeSort es

include ha hb in
/-- Sorting sorts each side, and puts the left one first. -/
theorem sort_eq (es : List (Either α β)) :
    sort es = ((es.filterMap left?).mergeSort fun a b => (rank a b).isLE).map left ++
      ((es.filterMap right?).mergeSort fun a b => (rank a b).isLE).map right := by
  refine (ha.either hb).eq_of_perm (ascending_sort (ha.either hb) es)
    (ascending_sides (ha.ascending_mergeSort _) (hb.ascending_mergeSort _))
    ((sort_perm es).trans ((perm_sides es).symm.trans ?_))
  exact .append ((List.mergeSort_perm _ _).symm.map left) ((List.mergeSort_perm _ _).symm.map right)

example : sort [right "b", left (3 : Int64), right "aé", left (-1), right "a"] =
    [left (-1), left 3, right "a", right "aé", right "b"] := by cbv

/-- In a list that is in order, no value is above the one that follows it. -/
theorem rankNeighbours_ne_gt {es : List (Either α β)} (h : Ascending es) :
    ∀ o ∈ rankNeighbours es, o ≠ .gt := by
  rw [rankNeighbours_eq_zipWith]
  intro o ho
  obtain ⟨i, hi, rfl⟩ := List.getElem_of_mem ho
  rw [List.length_zipWith, List.length_tail] at hi
  rw [List.getElem_zipWith, List.getElem_tail]
  have hle := List.pairwise_iff_getElem.1 h i (i + 1) (by omega) (by omega) (by omega)
  exact Ordering.isLE_iff_ne_gt.1 hle

end Either
end Sorting

open Either in
/-- Two-sided values with integers on the left and texts on the right are in a total order, and
sorting puts the integers in ascending order, then the texts in that of their bytes. -/
structure SortsSides [Ranked α] (value : α → ℤ) : Prop where
  trichotomy (e f : Either α String) :
    (rank e f = .lt ∧ e ≠ f ∧ rank f e = .gt) ∨ (rank e f = .eq ∧ e = f ∧ rank f e = .eq) ∨
      (rank e f = .gt ∧ e ≠ f ∧ rank f e = .lt)
  antisymm (e f : Either α String) : (rank e f).isLE → (rank f e).isLE → e = f
  isLE_trans (e f g : Either α String) : (rank e f).isLE → (rank f g).isLE → (rank e g).isLE
  lt_trans (e f g : Either α String) : rank e f = .lt → rank f g = .lt → rank e g = .lt
  perm (es : List (Either α String)) : (sort es).Perm es
  sides (es : List (Either α String)) : ∃ (as : List α) (ss : List String),
    sort es = as.map left ++ ss.map right ∧
      as.Perm (es.filterMap left?) ∧ as.Pairwise (fun a b => value a ≤ value b) ∧
      ss.Perm (es.filterMap right?) ∧ ss.Pairwise (fun s t => bytesOf s ≤ bytesOf t)
  unique (es fs : List (Either α String)) :
    fs.Perm es → fs.Pairwise (fun e f => (rank e f).isLE) → fs = sort es
  ascending (es : List (Either α String)) : Ascending (sort es)
  neighbours (es : List (Either α String)) : ∀ o ∈ rankNeighbours (sort es), o ≠ .gt

theorem RanksAsInt.sortsSides [Ranked α] {value : α → ℤ} (h : RanksAsInt value) :
    SortsSides value := by
  have hsides : TotallyRanked (Either α String) := h.totallyRanked.either totallyRanked_text
  have hsorted : ∀ es : List (Either α String), Ascending (Either.sort es) :=
    Either.ascending_sort hsides
  refine ⟨hsides.trichotomy, fun _ _ => hsides.antisymm, hsides.isLE_trans,
    fun _ _ _ => hsides.lt_trans, Either.sort_perm, fun es => ?_, fun es fs hp hfs => ?_,
    hsorted, fun es => Either.rankNeighbours_ne_gt (hsorted es)⟩
  · refine ⟨_, _, Either.sort_eq h.totallyRanked totallyRanked_text es, List.mergeSort_perm _ _, ?_,
      List.mergeSort_perm _ _, ?_⟩
    · exact (h.totallyRanked.ascending_mergeSort _).imp fun {a b} => (h.isLE_iff a b).1
    · exact (totallyRanked_text.ascending_mergeSort _).imp fun {s t} => (rank_text_isLE_iff s t).1
  · exact hsides.eq_of_perm hfs (hsorted es) (hp.trans (Either.sort_perm es).symm)

/-- **Two-sided values of integers and texts are in a total order, and sorting them gives the
integers in ascending order, followed by the texts in ascending order of their bytes.** -/
theorem sides_sort_in_order :
    SortsSides Int64.toInt ∧ ∀ k : IntKind, SortsSides (Bounded.val : Bounded k → ℤ) :=
  ⟨RanksAsInt.int64.sortsSides, fun k => (RanksAsInt.bounded k).sortsSides⟩

end Deferral
