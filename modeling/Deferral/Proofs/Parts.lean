import Deferral.Proofs.Absent
import Deferral.Proofs.Copies
import Deferral.Proofs.Groupings

/-!
# Merging in parts

Texts and arrays are put behind each other when they merge, and what may be absent merges as what
is there. No such merge panics, and the grouping never matters, so a list may be cut into parts
that are merged on their own, and so may copies of a value.

* `lawfulMerge_option`: values that merge as in a monoid do so where they may be absent.
* `LawfulMerge.merge_mergeFrom`: to merge onto a value what a list comes to is to merge the list
  onto it; by induction on the list, with the law of association for the step.
* `LawfulMerge.mergesInParts`: lists and copies, cut in two.
* `Concatenates.exists_mergeAll`: what a merged list holds is what its values hold, in order.
* `parts_merge_alike`: all of it, for **texts, units, arrays and what may be absent of these**.
-/

namespace Deferral

variable {α β : Type}

/-- The types of texts, units and arrays, and of values of these types that may be absent. -/
inductive Plain : (α : Type) → Unital α → Prop where
  | text : Plain String inferInstance
  | unit : Plain Unit inferInstance
  | array (β : Type) : Plain (Array β) inferInstance
  | option {α : Type} {values : Unital α} (h : Plain α values) : Plain (Option α) inferInstance

/-- How lists and copies merge that may be cut in two anywhere. -/
structure MergesInParts (α : Type) [Unital α] : Prop where
  total (as : List α) : ∃ c, mergeAll as = .ok c
  append (as bs : List α) : mergeAll (as ++ bs) = do merge (← mergeAll as) (← mergeAll bs)
  nil : mergeAll ([] : List α) = .ok Unital.unit
  reduce_eq (as : List α) : as ≠ [] → reduce as = some <$> mergeAll as
  copies (a : α) (n : ℕ) : 1 ≤ n → reduce (List.replicate n a) = some <$> mergeTimes a n
  add (a : α) (m n : ℕ) : 1 ≤ m → 1 ≤ n →
    mergeTimes a (m + n) = do merge (← mergeTimes a m) (← mergeTimes a n)

section Lawful

theorem lawfulMerge_unit : LawfulMerge Unit where
  total _ _ := ⟨(), rfl⟩
  assoc _ _ _ := rfl
  unit_merge _ := rfl
  merge_unit _ := rfl

theorem lawfulMerge_array (β : Type) : LawfulMerge (Array β) where
  total a b := ⟨a ++ b, rfl⟩
  assoc _ _ _ := congrArg Except.ok Array.append_assoc
  unit_merge _ := congrArg Except.ok Array.empty_append
  merge_unit _ := congrArg Except.ok Array.append_empty

theorem merge_some [Mergeable α] (a b : α) : merge (some a) (some b) = some <$> merge a b := rfl

theorem merge_none [Mergeable α] (a : Option α) : merge a none = .ok a := by cases a <;> rfl

/-- Where a value is absent there is one merge fewer, in both groupings. -/
theorem lawfulMerge_option [Unital α] (h : LawfulMerge α) : LawfulMerge (Option α) where
  total a b := by
    cases a with
    | none => exact ⟨b, rfl⟩
    | some a =>
      cases b with
      | none => exact ⟨some a, rfl⟩
      | some b =>
        obtain ⟨c, hc⟩ := h.total a b
        exact ⟨some c, by rw [merge_some, hc]; rfl⟩
  assoc a b c := by
    cases a with
    | none => exact (bind_pure (merge b c)).symm
    | some a =>
      cases b with
      | none => rfl
      | some b =>
        obtain ⟨ab, hab⟩ := h.total a b
        cases c with
        | none =>
          rw [merge_none, merge_some, hab]
          exact (congrArg (some <$> ·) hab).symm
        | some c =>
          obtain ⟨bc, hbc⟩ := h.total b c
          have hassoc := h.assoc a b c
          rw [hab, hbc] at hassoc
          rw [merge_some, merge_some, hab, hbc]
          exact congrArg (some <$> ·) hassoc
  unit_merge _ := rfl
  merge_unit := merge_none

/-- **Plain values merge as in a monoid**, by induction on how many levels may be absent. -/
theorem Plain.lawfulMerge {values : Unital α} (h : Plain α values) : LawfulMerge α := by
  induction h with
  | text => exact lawfulMerge_string
  | unit => exact lawfulMerge_unit
  | array β => exact lawfulMerge_array β
  | option _ ih => exact lawfulMerge_option ih

end Lawful

section Lists

theorem mergeFrom_cons_eq [Mergeable α] (a b : α) (bs : List α) :
    mergeFrom a (b :: bs) = merge a b >>= fun c => mergeFrom c bs := by
  rw [mergeFrom]
  cases merge a b <;> rfl

/-- A list is merged up to any place in it, and then on. -/
theorem mergeFrom_append [Mergeable α] (a : α) (as bs : List α) :
    mergeFrom a (as ++ bs) = mergeFrom a as >>= fun c => mergeFrom c bs := by
  simp only [mergeFrom_eq_foldlM, List.foldlM_append]

theorem reduce_replicate [Mergeable α] (a : α) {n : ℕ} (hn : 1 ≤ n) :
    reduce (List.replicate n a) = some <$> mergeTimes a n := by
  obtain ⟨n, rfl⟩ := Nat.exists_eq_add_of_le' hn
  rw [mergeTimes_succ_eq]
  rfl

namespace LawfulMerge

variable [Unital α] (h : LawfulMerge α)

include h

/-- No list panics. -/
theorem exists_mergeFrom (a : α) (as : List α) : ∃ c, mergeFrom a as = .ok c := by
  induction as generalizing a with
  | nil => exact ⟨a, rfl⟩
  | cons b bs ih =>
    obtain ⟨c, hc⟩ := h.total a b
    rw [mergeFrom, hc]
    exact ih c

/-- What a list comes to may be merged onto a value at once. -/
theorem merge_mergeFrom (a b : α) (as : List α) :
    (mergeFrom b as >>= fun c => merge a c) = merge a b >>= fun c => mergeFrom c as := by
  -- on the list, for any value `b` in front of it; the law of association takes one value over
  simp only [mergeFrom_eq_foldlM]
  induction as generalizing b with
  | nil => exact (bind_pure (merge a b)).symm
  | cons d ds ih =>
    simp only [List.foldlM_cons]
    calc ((merge b d >>= fun bd => ds.foldlM merge bd) >>= fun c => merge a c)
        = merge b d >>= fun bd => ds.foldlM merge bd >>= fun c => merge a c := bind_assoc _ _ _
      _ = merge b d >>= fun bd => merge a bd >>= fun c => ds.foldlM merge c := bind_congr ih
      _ = (merge b d >>= fun bd => merge a bd) >>= fun c => ds.foldlM merge c :=
        (bind_assoc _ _ _).symm
      _ = (merge a b >>= fun ab => merge ab d) >>= fun c => ds.foldlM merge c := by rw [h.assoc]
      _ = merge a b >>= fun ab => merge ab d >>= fun c => ds.foldlM merge c := bind_assoc _ _ _

/-- The second part may be merged on its own, from another unit, since that is neutral. -/
theorem mergeAll_append (as bs : List α) :
    mergeAll (as ++ bs) = (do merge (← mergeAll as) (← mergeAll bs)) := by
  rw [mergeAll, mergeFrom_append]
  refine bind_congr fun c => ?_
  rw [mergeAll, h.merge_mergeFrom, h.merge_unit]
  rfl

/-- The second part of the copies may be merged on its own. -/
theorem mergeTimes_add (a : α) {m n : ℕ} (hm : 1 ≤ m) (hn : 1 ≤ n) :
    mergeTimes a (m + n) = (do merge (← mergeTimes a m) (← mergeTimes a n)) := by
  obtain ⟨m, rfl⟩ := Nat.exists_eq_add_of_le' hm
  obtain ⟨n, rfl⟩ := Nat.exists_eq_add_of_le' hn
  -- of the `m + n + 1` copies that follow the first one, the second part starts with the one after
  -- `m`
  have hcut : List.replicate (m + 1 + n) a = List.replicate m a ++ a :: List.replicate n a := by
    rw [← List.replicate_succ, List.replicate_append_replicate]
    congr 1
    omega
  calc mergeTimes a (m + 1 + (n + 1))
      = mergeFrom a (List.replicate (m + 1 + n) a) := mergeTimes_succ_eq a (m + 1 + n)
    _ = mergeTimes a (m + 1) >>= fun c => mergeFrom c (a :: List.replicate n a) := by
      rw [hcut, mergeFrom_append, mergeTimes_succ_eq]
    _ = mergeTimes a (m + 1) >>= fun c => mergeTimes a (n + 1) >>= fun d => merge c d := by
      refine bind_congr fun c => ?_
      rw [mergeTimes_succ_eq, h.merge_mergeFrom, mergeFrom_cons_eq]

theorem mergesInParts : MergesInParts α where
  total := h.exists_mergeFrom Unital.unit
  append := h.mergeAll_append
  nil := rfl
  reduce_eq
    | [], has => absurd rfl has
    | a :: as, _ => (mergeAll_eq_reduce as (h.unit_merge a)).symm
  copies a _ hn := reduce_replicate a hn
  add a _ _ hm hn := h.mergeTimes_add a hm hn

end LawfulMerge
end Lists

/-- Values that hold lists, which are put behind each other when they merge. -/
structure Concatenates [Unital α] (held : α → List β) : Prop where
  merge (a b : α) : ∃ c, merge a b = .ok c ∧ held c = held a ++ held b
  unit : held Unital.unit = []

namespace Concatenates

variable [Unital α] {held : α → List β} (h : Concatenates held)

include h

theorem exists_mergeFrom (a : α) (as : List α) :
    ∃ c, mergeFrom a as = .ok c ∧ held c = held a ++ as.flatMap held := by
  induction as generalizing a with
  | nil => exact ⟨a, rfl, (List.append_nil _).symm⟩
  | cons b bs ih =>
    obtain ⟨c, hmerge, hc⟩ := h.merge a b
    obtain ⟨d, hrest, hd⟩ := ih c
    refine ⟨d, ?_, ?_⟩
    · rw [mergeFrom, hmerge]
      exact hrest
    · rw [hd, hc, List.append_assoc, List.flatMap_cons]

/-- **Nothing is lost or doubled**: a merged list holds what its values hold, in order. -/
theorem exists_mergeAll (as : List α) : ∃ c, mergeAll as = .ok c ∧ held c = as.flatMap held := by
  obtain ⟨c, hok, hc⟩ := h.exists_mergeFrom Unital.unit as
  rw [h.unit, List.nil_append] at hc
  exact ⟨c, hok, hc⟩

end Concatenates

theorem concatenates_text : Concatenates String.toList where
  merge s t := ⟨s ++ t, rfl, String.toList_append⟩
  unit := rfl

theorem concatenates_array (β : Type) : Concatenates (Array.toList (α := β)) where
  merge _ _ := ⟨_, rfl, Array.toList_append⟩
  unit := rfl

/-- **Merging in parts.** Texts, units, arrays and what may be absent of these, at any number of
levels, merge without panics, associatively and with a neutral unit. So a list may be cut in two,
to be merged from the unit or, where it has a first value, from that; copies merge as the list of
them does, and their number may be cut in two. Texts and arrays that are merged hold what was in
them, in order. -/
theorem parts_merge_alike :
    (∀ (α : Type) (values : Unital α), Plain α values → LawfulMerge α ∧ MergesInParts α) ∧
    (∀ ss : List String, ∃ t, mergeAll ss = .ok t ∧ t.toList = ss.flatMap String.toList) ∧
    ∀ (β : Type) (as : List (Array β)),
      ∃ c, mergeAll as = .ok c ∧ c.toList = as.flatMap Array.toList :=
  ⟨fun _ _ h => ⟨h.lawfulMerge, h.lawfulMerge.mergesInParts⟩, concatenates_text.exists_mergeAll,
    fun β => (concatenates_array β).exists_mergeAll⟩

/-- A text that is absent at one level, at the other or not at all, and copies of an array. -/
theorem parts_merge_alike_levels :
    Plain (Option (Option String)) inferInstance ∧ Plain (Option (Array ℕ)) inferInstance ∧
    mergeAll ([some (some "a"), none] ++ [some none, some (some "b")]) = .ok (some (some "ab")) ∧
    mergeTimes (some #[1, 2]) (1 + 2) = .ok (some #[1, 2, 1, 2, 1, 2]) ∧
    ∃ t, mergeAll ["a", "", "bc"] = .ok t ∧ t.toList = ['a', 'b', 'c'] := by
  obtain ⟨hplain, htexts, -⟩ := parts_merge_alike
  have htext : Plain (Option (Option String)) inferInstance := .option (.option .text)
  have harray : Plain (Option (Array ℕ)) inferInstance := .option (.array ℕ)
  obtain ⟨-, hlist⟩ := hplain _ _ htext
  obtain ⟨-, hcopies⟩ := hplain _ _ harray
  refine ⟨htext, harray, ?_, ?_, htexts _⟩
  · exact (hlist.append [some (some "a"), none] [some none, some (some "b")]).trans rfl
  · exact (hcopies.add (some #[1, 2]) 1 2 (by decide) (by decide)).trans rfl

end Deferral
