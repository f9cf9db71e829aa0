import Deferral.Merge.Basic
import Mathlib.Data.List.ReduceOption

/-!
# Values that may be absent

An absent value is a unit for every type whose values merge, be the merge associative or not and
whether it panics or not. So a list of optional values merges as what is present in it does when
that is reduced from the left, and absent values can be put anywhere or taken away. Optional values
merge themselves, so all this holds of values that may be absent at several levels; but a value
that is present and has nothing in it is not absent.

* `mergeFrom_none`, `mergeFrom_some`: before the first present value, and after it; by induction on
  the list.
* `mergesPresent`: how optional values of any type merge.
* `optional_values_merge`: **what is present merges**, at every level.
-/

namespace Deferral

variable {α β : Type}

/-- Values that may be absent at so many levels. -/
def Nested (α : Type) : ℕ → Type
  | 0 => α
  | n + 1 => Option (Nested α n)

/-- How such values merge. -/
instance Nested.mergeable [Mergeable α] : (n : ℕ) → Mergeable (Nested α n)
  | 0 => inferInstanceAs (Mergeable α)
  | n + 1 =>
    have := Nested.mergeable n
    inferInstanceAs (Mergeable (Option (Nested α n)))

/-- Lists of optional values merge as what is present in them. -/
structure MergesPresent (β : Type) [Mergeable β] : Prop where
  mergeAll_eq (as : List (Option β)) : mergeAll as = reduce as.reduceOption
  absent_iff (as : List (Option β)) : mergeAll as = .ok none ↔ ∀ a ∈ as, a = none
  present (as : List (Option β)) (b : β) (bs : List β) : as.reduceOption = b :: bs →
    mergeAll as = some <$> bs.foldlM merge b
  congr (as bs : List (Option β)) : as.reduceOption = bs.reduceOption → mergeAll as = mergeAll bs
  insert (as bs : List (Option β)) : mergeAll (as ++ none :: bs) = mergeAll (as ++ bs)
  neutral_iff (a : Option β) :
    (∀ as bs, mergeAll (as ++ a :: bs) = mergeAll (as ++ bs)) ↔ a = none

section Merge

variable [Mergeable β]

/-- Merging from a value is the fold of the library, which stops at the first panic. -/
theorem mergeFrom_eq_foldlM (b : β) (bs : List β) : mergeFrom b bs = bs.foldlM merge b := by
  induction bs generalizing b with
  | nil => rfl
  | cons c bs ih =>
    rw [mergeFrom, List.foldlM_cons]
    cases merge b c with
    | ok d => exact ih d
    | error p => rfl

/-- After a present value, what is present is merged onto it. -/
theorem mergeFrom_some (b : β) (as : List (Option β)) :
    mergeFrom (some b) as = some <$> mergeFrom b as.reduceOption := by
  -- on the list, for any value merged so far; an absent element leaves that value as it is
  induction as generalizing b with
  | nil => rfl
  | cons a as ih =>
    cases a with
    | none => exact ih b
    | some c =>
      have hmerge : merge (some b) (some c) = some <$> merge b c := rfl
      rw [List.reduceOption_cons_of_some, mergeFrom, mergeFrom, hmerge]
      cases merge b c with
      | ok d => exact ih d
      | error p => rfl

/-- Before the first present value there is nothing to merge. -/
theorem mergeFrom_none (as : List (Option β)) : mergeFrom none as = reduce as.reduceOption := by
  induction as with
  | nil => rfl
  | cons a as ih =>
    cases a with
    | none => exact ih
    | some b => exact mergeFrom_some b as

/-- The unit is an absent value, so a list of optional values merges as what is present in it. -/
theorem mergeAll_eq_reduce_present (as : List (Option β)) :
    mergeAll as = reduce as.reduceOption := mergeFrom_none as

/-- To reduce the optional values of a list is to merge them all, if there are any. -/
theorem reduce_present {as : List (Option β)} (has : as ≠ []) :
    reduce as = some <$> reduce as.reduceOption := by
  cases as with
  | nil => exact absurd rfl has
  | cons a as =>
    rw [← mergeAll_eq_reduce as (rfl : merge Unital.unit a = .ok a), mergeAll_eq_reduce_present]

/-- Only an empty list reduces to no value. -/
theorem reduce_eq_none_iff (bs : List β) : reduce bs = .ok none ↔ bs = [] := by
  cases bs with
  | nil => exact iff_of_true rfl rfl
  | cons b bs =>
    refine iff_of_false (fun h => ?_) (List.cons_ne_nil b bs)
    rw [reduce] at h
    cases hm : mergeFrom b bs with
    | ok c =>
      rw [hm] at h
      cases h
    | error p =>
      rw [hm] at h
      cases h

/-- **Optional values of any type merge as what is present.** -/
theorem mergesPresent : MergesPresent β where
  mergeAll_eq := mergeAll_eq_reduce_present
  absent_iff as := by
    rw [mergeAll_eq_reduce_present, reduce_eq_none_iff]
    exact List.filterMap_eq_nil_iff
  present as b bs has := by
    rw [mergeAll_eq_reduce_present, has, reduce, mergeFrom_eq_foldlM]
  congr as bs h := by
    rw [mergeAll_eq_reduce_present, mergeAll_eq_reduce_present, h]
  insert as bs := by
    rw [mergeAll_eq_reduce_present, mergeAll_eq_reduce_present, List.reduceOption_append,
      List.reduceOption_append, List.reduceOption_cons_of_none]
  neutral_iff a := by
    refine ⟨fun h => ?_, ?_⟩
    · -- alone in a list it merges into itself
      have halone : mergeAll [a] = mergeAll ([] : List (Option β)) := h [] []
      exact Option.some.inj (congrArg (Except.toOption) halone)
    · rintro rfl as bs
      rw [mergeAll_eq_reduce_present, mergeAll_eq_reduce_present, List.reduceOption_append,
        List.reduceOption_append, List.reduceOption_cons_of_none]

end Merge

/-- **What is present merges.** A list of optional values merges as what is present in it, reduced
from the left; absent values change nothing wherever they are, and no others do so. With values
that may be absent at several levels it is the same at each: those absent at the outermost level
are left out, and what is inside the others merges as its own level has it, nothing or something. -/
theorem optional_values_merge (α : Type) [Mergeable α] :
    MergesPresent α ∧ ∀ n, MergesPresent (Nested α n) ∧
      ∀ as : List (Option (Option (Nested α n))), as.reduceOption ≠ [] →
        mergeAll as = some <$> mergeAll as.reduceOption := by
  refine ⟨mergesPresent, fun n => ⟨mergesPresent, fun as has => ?_⟩⟩
  rw [mergeAll_eq_reduce_present, mergeAll_eq_reduce_present, reduce_present has]

/-- A text to which nothing may be added. -/
structure Sealed where
  text : String
  deriving DecidableEq

instance : Mergeable Sealed := ⟨fun s _ => .error (.text s.text)⟩

/-- A value with nothing in it is present, and absent values do not keep two sealed texts apart. -/
theorem optional_values_merge_sealed :
    mergeAll [none, some none, none] = .ok (some (none : Option Sealed)) ∧
    mergeAll [none, some (Sealed.mk "a"), none, some ⟨"b"⟩] = .error (.text "a") ∧
    [some none, none, some (some (Sealed.mk "a"))].reduceOption ≠ [] ∧
    mergeAll [some none, none, some (some (Sealed.mk "a"))] =
      some <$> mergeAll [none, some ⟨"a"⟩] := by
  obtain ⟨hsealed, hnested⟩ := optional_values_merge Sealed
  obtain ⟨-, hlevels⟩ := hnested 0
  have hinside := (hnested 1).1
  have hpresent : [some none, none, some (some (Sealed.mk "a"))].reduceOption ≠ [] := by decide
  refine ⟨?_, ?_, hpresent, hlevels _ hpresent⟩
  · exact hinside.present [none, some none, none] none [] rfl
  · exact hsealed.present _ ⟨"a"⟩ [⟨"b"⟩] rfl

end Deferral
