import Deferral.Action.Run
import Deferral.Merge.Basic

/-!
# Actions that merge

Merging two actions gives the action that runs the left one, then the right one, and merges their
values; a panic of that merge is one of running, not of building. The unit gives the unit.

An `Item` is an action that makes an entry on a tape before it ends, and `Merging.perform` runs
merged items, so that the tape tells which of them have run.
-/

namespace Deferral

variable {σ ε α ω : Type}

/-- Runs one action after the other and merges their values. -/
def Action.merged [Mergeable α] (a b : Action σ ε α) : Action σ ε α :=
  a.zipWith b fun x y => Work.ofChecked (merge x y)

instance [Mergeable α] : Mergeable (Action σ ε α) := ⟨fun a b => .ok (a.merged b)⟩

instance [Unital α] : Unital (Action σ ε α) where
  unit := .pure Unital.unit

/-- The entries that items have made, the oldest first. Runs leave no trace on it. -/
structure Tape (ω : Type) where
  entries : Array ω

instance : Tracing (Tape ω) := ⟨fun _ s => s⟩

/-- What a piece of work enters on the tape, and how it ends. -/
structure Item (ω ε α : Type) where
  entry : Option ω
  ending : Checked (Except ε α)

/-- The action of an item. -/
def Item.action (i : Item ω ε α) : Action (Tape ω) ε α :=
  .ofFallible do
    if let some e := i.entry then
      modify fun s : Tape ω => ⟨s.entries.push e⟩
    Work.ofChecked i.ending

/-- Runs an action, with panics contained if that is wanted. -/
def Action.runContained [Tracing σ] [OfFault ε] (contained : Bool) (a : Action σ ε α) :
    Work σ (Except ε α) := if contained then a.containPanic.run else a.run

/-- Merges actions and runs what this gives. -/
def Merging.perform [Tracing σ] [OfFault ε] [Unital α] (contained : Bool)
    (m : Merging (Action σ ε α)) : Work σ (Merged (Except ε α)) := do
  let merged ← Work.ofChecked m.result
  merged.mapM (Action.runContained contained)

end Deferral
