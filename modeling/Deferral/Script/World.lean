import Deferral.Host
import Deferral.Script.Value

/-!
# The world of a script

What scripts can change: a journal of log and trace entries, named cells, slots that hold what
expressions have built (`κ`), the input and what was printed. Cells that were never written hold
zero.

A report tells what became of some work on a world, and what the work has added to the journal and
printed. Nothing that was done before a panic is lost: the world is the one the panic has left.
-/

namespace Deferral.Script

/-- Which values may be failures of actions: all of them, or faults only. -/
inductive Channel where
  | values
  | faults
  deriving DecidableEq

/-- The failure that a value stands for. Where failures are faults, a text is a message. -/
def Channel.failure? : Channel → Value → Option Value
  | values, v => some v
  | faults, .text s => some (.fault (.message s))
  | faults, .fault f => some (.fault f)
  | faults, _ => none

/-- An entry of the journal. -/
inductive Entry where
  | logged (v : Value)
  | traced (t : Trace)

/-- Writes an entry of a table, in place of the old one if there is one. -/
def put {α : Type} (key : String) (a : α) : List (String × α) → List (String × α)
  | [] => [(key, a)]
  | e :: es => if e.1 = key then (key, a) :: es else e :: put key a es

/-- What scripts can change. -/
structure World (κ : Type) where
  /-- Log and trace entries, the oldest first. -/
  journal : Array Entry
  /-- Trace entries are kept. -/
  tracing : Bool
  channel : Channel
  cells : List (String × Value)
  slots : List (String × κ)
  /-- The bytes of the input that were not taken yet. -/
  input : List UInt8
  printed : String

namespace World

variable {κ : Type}

/-- The world before anything has happened. -/
def fresh (tracing : Bool) (channel : Channel) (input : List UInt8) : World κ :=
  ⟨#[], tracing, channel, [], [], input, ""⟩

/-- Adds a value to the log. -/
def log (v : Value) (w : World κ) : World κ := { w with journal := w.journal.push (.logged v) }

/-- What a cell holds. -/
def cell (name : String) (w : World κ) : Value := (w.cells.lookup name).getD (.int 0)

/-- Writes a cell. -/
def setCell (name : String) (v : Value) (w : World κ) : World κ :=
  { w with cells := put name v w.cells }

/-- Fills a slot. -/
def fill (name : String) (k : κ) (w : World κ) : World κ := { w with slots := put name k w.slots }

/-- Empties a slot. -/
def clear (name : String) (w : World κ) : World κ :=
  { w with slots := w.slots.filter fun e => e.1 != name }

/-- Takes the next line of the input. A line that is no text is taken too. -/
def takeLine (w : World κ) : Except Fault String × World κ :=
  let line := Text.splitLine w.input
  let text := match Text.ofBytes? line.1 with
    | some s => .ok s
    | none => .error (.other (.device "InvalidData" "stream did not contain valid UTF-8"))
  (text, { w with input := line.2 })

instance : Tracing (World κ) where
  note t w := if w.tracing then { w with journal := w.journal.push (.traced t) } else w

instance : Console (World κ) where
  print s w := { w with printed := w.printed ++ s }
  takeLine := takeLine

end World

/-- Code that has no meaning. -/
def malformed {σ α : Type} : Work σ α := Work.panic (.text "type error")

variable {κ : Type}

/-- The failure that a value stands for in this world. -/
def failureOf (v : Value) : Work (World κ) Value := do
  match (← get).channel.failure? v with
  | some e => return e
  | none => malformed

/-- The outcome that a value stands for in this world. -/
def outcomeOf (v : Value) : Work (World κ) (Except Value Value) := do
  match v.toExcept? with
  | some (.ok a) => return .ok a
  | some (.error e) => return .error (← failureOf e)
  | none => malformed

/-- The sided value that a value stands for. -/
def sideOf {σ : Type} (v : Value) : Work σ (Either Value Value) :=
  match v.toEither? with
  | some e => return e
  | none => malformed

/-- The truth value that a value stands for. -/
def truthOf {σ : Type} : Value → Work σ Bool
  | .bool b => return b
  | _ => malformed

/-- How often a value says that something is repeated: a negative number means not at all. -/
def countOf {σ : Type} : Value → Work σ Nat
  | .int n => return n.toInt.toNat
  | _ => malformed

/-- The line that a value stands for: a text, or an integer in decimal. -/
def lineOf {σ : Type} : Value → Work σ String
  | .text s => return s
  | .int n => return toString n.toInt
  | _ => malformed

/-- What a slot holds; it stays there. -/
def peekSlot (name : String) : Work (World κ) κ := do
  match (← get).slots.lookup name with
  | some k => return k
  | none => Work.panic (.text ("no slot: " ++ name))

/-- Takes what a slot holds. -/
def takeSlot (name : String) : Work (World κ) κ := do
  let k ← peekSlot name
  modify (World.clear name)
  return k

/-! ## Reports -/

/-- What became of some work on a world. -/
structure Report (α : Type) where
  /-- The value of the work, or the panic that ended it; nothing if the budget was used up. -/
  ending : Option (Checked α)
  /-- The entries that the work has added to the journal. -/
  journal : List Entry
  /-- What the work has printed. -/
  printed : String
  /-- The cells after the work. -/
  cells : List (String × Value)

variable {α : Type}

namespace World

/-- The world with an empty journal and nothing printed. -/
def cleared (w : World κ) : World κ := { w with journal := #[], printed := "" }

/-- Reports on work that ended in the world `w`. -/
def reported (ending : Option (Checked α)) (w : World κ) : Report α × World κ :=
  (⟨ending, w.journal.toList, w.printed, w.cells⟩, w)

/-- Does some work from a world, and reports on it. -/
def report (budget : Nat) (w : World κ) (work : Work (World κ) α) : Report α × World κ :=
  match work.runFrom budget w.cleared with
  | .value a w' => reported (some (.ok a)) w'
  | .panic p w' => reported (some (.error p)) w'
  | .exhausted => reported none w.cleared

end World

end Deferral.Script
