import Deferral.Proofs.Items
import Deferral.Proofs.Outcomes

/-!
# Groupings of merged values

A `Grouping` is a way to merge the values of a list two by two, with units put anywhere among
them. Where values merge without panics, associatively and with a neutral unit, so do actions that
give such values: the effects of an action come where it stands in the list, and the values are
merged in whichever groups, with nothing to be seen of them.

* `Action.evaluate_merged_assoc`, `Action.evaluate_unit_merged`, `Action.evaluate_merged_unit`: the
  laws for actions.
* `Grouping.evaluate_action`: a grouping does the work of its leaves merged from the left, by
  induction on the grouping.
* `actions_merge_lawfully`: **actions are a monoid, effects included.**
-/

namespace Deferral

variable {σ ε α β : Type}

/-- Values that merge as in a monoid. -/
structure LawfulMerge (α : Type) [Unital α] : Prop where
  /-- No merge panics. -/
  total (a b : α) : ∃ c, merge a b = .ok c
  assoc (a b c : α) : (merge a b >>= fun ab => merge ab c) = merge b c >>= fun bc => merge a bc
  unit_merge : NeutralUnit α
  merge_unit (a : α) : merge a Unital.unit = .ok a

/-- Values that are merged two by two, and units among them. -/
inductive Grouping (β : Type) where
  | unit
  | one (b : β)
  | pair (l r : Grouping β)

namespace Grouping

/-- The values, from left to right. The units are not among them. -/
def leaves : Grouping β → List β
  | unit => []
  | one b => [b]
  | pair l r => l.leaves ++ r.leaves

/-- Merges the values as they are grouped. -/
def merged [Unital β] : Grouping β → Checked β
  | unit => .ok Unital.unit
  | one b => .ok b
  | pair l r => do merge (← l.merged) (← r.merged)

end Grouping

/-- Two actions do the same, when they are evaluated and when they are run. -/
structure Action.SameWork [Tracing σ] (a b : Action σ ε α) : Prop where
  evaluate_eq : a.evaluate = b.evaluate
  run_eq : a.run = b.run

theorem Action.SameWork.of_evaluate [Tracing σ] {a b : Action σ ε α}
    (h : a.evaluate = b.evaluate) : a.SameWork b := ⟨h, Action.run_eq_of_evaluate h⟩

/-- What merged actions come to: the left value, then the right one, then what these merge into. -/
theorem held_merged [Mergeable α] (a b : Action σ ε α) :
    held (a.merged b) = held a >>= fun x => held b >>= fun y =>
      (liftM (Work.ofChecked (merge x y) : Work σ α) : ExceptT ε (Work σ) α) :=
  congrArg ExceptT.mk (a.evaluate_zipWith b _)

namespace Action

/-- What actions do decides what they do when they are merged. -/
theorem evaluate_merged_congr [Mergeable α] {a a' b b' : Action σ ε α}
    (ha : a.evaluate = a'.evaluate) (hb : b.evaluate = b'.evaluate) :
    (a.merged b).evaluate = (a'.merged b').evaluate := by
  have ha : held (σ := σ) a = held a' := congrArg ExceptT.mk ha
  have hb : held (σ := σ) b = held b' := congrArg ExceptT.mk hb
  have hheld : held (σ := σ) (a.merged b) = held (a'.merged b') := by
    rw [held_merged, held_merged, ha, hb]
  exact congrArg ExceptT.run hheld

variable [Unital α]

/-- **The law of association.** The left side merges its values before the last action is
evaluated and the right side after it, which cannot be told as no merge panics. -/
theorem evaluate_merged_assoc (h : LawfulMerge α) (x y z : Action σ ε α) :
    ((x.merged y).merged z).evaluate = (x.merged (y.merged z)).evaluate := by
  have hheld : held (σ := σ) ((x.merged y).merged z) = held (x.merged (y.merged z)) := by
    simp only [held_merged, bind_assoc]
    refine bind_congr fun a => bind_congr fun b => ?_
    obtain ⟨ab, hab⟩ := h.total a b
    rw [hab]
    -- here the two sides differ: one has merged its first two values, the other has not
    change held z >>= _ = held z >>= _
    refine bind_congr fun c => ?_
    obtain ⟨bc, hbc⟩ := h.total b c
    have hassoc := h.assoc a b c
    rw [hab, hbc] at hassoc
    rw [hbc]
    exact congrArg (fun m => (liftM (Work.ofChecked m : Work σ α) : ExceptT ε (Work σ) α)) hassoc
  exact congrArg ExceptT.run hheld

/-- The unit on the left has no effect, and its value is merged away. -/
theorem evaluate_unit_merged (h : LawfulMerge α) (x : Action σ ε α) :
    ((.pure Unital.unit : Action σ ε α).merged x).evaluate = x.evaluate := by
  have hheld : held (σ := σ) ((.pure Unital.unit : Action σ ε α).merged x) = held x := by
    rw [held_merged]
    refine (pure_bind Unital.unit _).trans ?_
    refine Eq.trans (bind_congr fun a => ?_) (bind_pure (held x))
    rw [h.unit_merge a]
    rfl
  exact congrArg ExceptT.run hheld

/-- The unit on the right comes after all effects, and has none. -/
theorem evaluate_merged_unit (h : LawfulMerge α) (x : Action σ ε α) :
    (x.merged (.pure Unital.unit)).evaluate = x.evaluate := by
  have hheld : held (σ := σ) (x.merged (.pure Unital.unit)) = held x := by
    rw [held_merged]
    refine Eq.trans (bind_congr fun a => ?_) (bind_pure (held x))
    refine (pure_bind Unital.unit _).trans ?_
    rw [h.merge_unit a]
    rfl
  exact congrArg ExceptT.run hheld

end Action

section Group

variable [Unital α]

/-- The action that a grouping of actions merges into. -/
def Grouping.action : Grouping (Action σ ε α) → Action σ ε α
  | unit => .pure Unital.unit
  | one a => a
  | pair l r => l.action.merged r.action

/-- To merge actions is to make another one, which does not panic. -/
theorem Grouping.merged_eq_ok (t : Grouping (Action σ ε α)) : t.merged = .ok t.action := by
  induction t with
  | unit => rfl
  | one a => rfl
  | pair l r ihl ihr => rw [merged, ihl, ihr]; rfl

/-- A list of actions merged onto one of two that are merged. -/
theorem evaluate_merged_foldl (h : LawfulMerge α) (x y : Action σ ε α) (as : List (Action σ ε α)) :
    (x.merged (as.foldl Action.merged y)).evaluate =
      (as.foldl Action.merged (x.merged y)).evaluate := by
  -- on the list, for any second action: the law of association moves one action out at a time
  induction as generalizing y with
  | nil => rfl
  | cons a as ih =>
    rw [List.foldl_cons, ih, List.foldl_cons, evaluate_foldl_merged, evaluate_foldl_merged,
      Action.evaluate_merged_assoc h]

/-- **The grouping does not matter.** The leaves are merged from the left, onto the unit. -/
theorem Grouping.evaluate_action (h : LawfulMerge α) (t : Grouping (Action σ ε α)) :
    t.action.evaluate = (t.leaves.foldl Action.merged (.pure Unital.unit)).evaluate := by
  induction t with
  | unit => rfl
  | one a => exact (Action.evaluate_unit_merged h a).symm
  | pair l r ihl ihr =>
    rw [leaves, List.foldl_append]
    calc (l.action.merged r.action).evaluate
        = ((l.leaves.foldl Action.merged (.pure Unital.unit)).merged
            (r.leaves.foldl Action.merged (.pure Unital.unit))).evaluate :=
          Action.evaluate_merged_congr ihl ihr
      _ = (r.leaves.foldl Action.merged ((l.leaves.foldl Action.merged
            (.pure Unital.unit)).merged (.pure Unital.unit))).evaluate :=
          evaluate_merged_foldl h _ _ _
      _ = _ := by
          -- the unit in the middle goes away
          rw [evaluate_foldl_merged, Action.evaluate_merged_unit h, ← evaluate_foldl_merged]

end Group

/-- **Actions are a monoid, effects included.** Let values merge without panics, associatively and
with a neutral unit. Then three actions do the same in both groupings, and an action does the same
with the unit on either side, in each state and with the same changes of it, whether they give
values, fail or panic. So all groupings of a list of actions, with units anywhere, do what the
list does when it is reduced from the left. -/
theorem actions_merge_lawfully [Tracing σ] [Unital α] (h : LawfulMerge α) :
    (∀ x y z : Action σ ε α, ∃ l r, (do merge (← merge x y) z) = .ok l ∧
      (do merge x (← merge y z)) = .ok r ∧ l.SameWork r) ∧
    (∀ x : Action σ ε α, ∃ l r, merge Unital.unit x = .ok l ∧ merge x Unital.unit = .ok r ∧
      l.SameWork x ∧ r.SameWork x) ∧
    ∀ (t : Grouping (Action σ ε α)) (a : Action σ ε α) (as : List (Action σ ε α)),
      t.leaves = a :: as →
      ∃ m r, t.merged = .ok m ∧ reduce (a :: as) = .ok (some r) ∧ m.SameWork r := by
  refine ⟨fun x y z => ⟨_, _, rfl, rfl, .of_evaluate (Action.evaluate_merged_assoc h x y z)⟩,
    fun x => ⟨_, _, rfl, rfl, .of_evaluate (Action.evaluate_unit_merged h x),
      .of_evaluate (Action.evaluate_merged_unit h x)⟩, ?_⟩
  intro t a as hleaves
  obtain ⟨m, r, hm, hr, hmr⟩ := evaluate_mergeAll_eq h.unit_merge a as
  refine ⟨t.action, r, t.merged_eq_ok, hr, .of_evaluate ?_⟩
  -- to merge from the unit is to reduce, as the unit is neutral
  obtain rfl : _ = m := Except.ok.inj ((mergeFrom_action _ _).symm.trans hm)
  rw [t.evaluate_action h, hleaves, ← hmr]
  rfl

/-- Texts merge as in a monoid. -/
theorem lawfulMerge_string : LawfulMerge String where
  total s t := ⟨s ++ t, rfl⟩
  assoc _ _ _ := congrArg Except.ok String.append_assoc
  unit_merge _ := congrArg Except.ok String.empty_append
  merge_unit _ := congrArg Except.ok String.append_empty

/-- An item that makes an entry and ends so. -/
def entered (entry : ℕ) (ending : Checked (Except String String)) : Action (Tape ℕ) String String :=
  Item.action ⟨some entry, ending⟩

/-- Four actions, of which the third panics, in groups with units. -/
def unitsAmong : Grouping (Action (Tape ℕ) String String) :=
  .pair (.pair .unit (.one (entered 1 (.ok (.ok "a")))))
    (.pair (.pair (.one (entered 2 (.ok (.ok "b")))) .unit)
      (.pair (.one (entered 3 (.error (.text "boom")))) (.one (entered 4 (.ok (.error "no"))))))

theorem actions_merge_unitsAmong :
    LawfulMerge String ∧ unitsAmong.leaves = [entered 1 (.ok (.ok "a")), entered 2 (.ok (.ok "b")),
      entered 3 (.error (.text "boom")), entered 4 (.ok (.error "no"))] ∧
    ∃ m r, unitsAmong.merged = .ok m ∧ reduce unitsAmong.leaves = .ok (some r) ∧ m.SameWork r ∧
      m.run 0 ⟨#[]⟩ = .panic (.text "boom") ⟨#[1, 2, 3]⟩ := by
  obtain ⟨-, -, hgroup⟩ := actions_merge_lawfully (σ := Tape ℕ) (ε := String) lawfulMerge_string
  obtain ⟨m, r, hm, hr, hsame⟩ := hgroup unitsAmong _ _ rfl
  obtain rfl : unitsAmong.action = m := Except.ok.inj (unitsAmong.merged_eq_ok.symm.trans hm)
  exact ⟨lawfulMerge_string, rfl, _, r, hm, hr, hsame, rfl⟩

end Deferral
