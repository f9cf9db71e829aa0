import Deferral.Fault.Layout
import Deferral.Work

/-!
# Hosts

What the library asks of a host state: that it can take note of the trace (`Tracing`), and, where
actions print and read, that it has an output and an input (`Console`).

What running an action tells an observer is a span for each run, with its entry and exit, and events
for failed runs, caught panics and finished loops. The host decides what becomes of an entry.

An input is a list of bytes. Its next line ends with the next line feed, or with the input.

Main statement: `splitLine_append`, taking a line loses nothing of the input.
-/

namespace Deferral

/-! ## Traces -/

/-- How much an entry matters. -/
inductive Level where
  | trace
  | debug
  | warn
  deriving DecidableEq

/-- The name of a level. -/
def Level.name : Level → String
  | trace => "TRACE"
  | debug => "DEBUG"
  | warn => "WARN"

/-- What a field of an event holds. -/
inductive FieldValue where
  | number (n : Nat)
  | text (t : String)
  deriving DecidableEq

/-- An entry of the trace. -/
inductive Trace where
  /-- A span begins to exist. -/
  | span (level : Level) (name : String)
  /-- The last span that was made is entered. -/
  | enter
  /-- The last span that was entered is left. -/
  | exit
  /-- Something happened inside the current span. The first field is the message. -/
  | event (level : Level) (fields : List (String × FieldValue))
  deriving DecidableEq

/-- A host state that can take note of trace entries. -/
class Tracing (σ : Type) where
  /-- Takes note of an entry. -/
  note : Trace → σ → σ

/-- A host that only keeps the entries, the last one first. -/
instance : Tracing (List Trace) := ⟨List.cons⟩

/-- A host with something beside what takes the notes. -/
instance {σ ρ : Type} [Tracing σ] : Tracing (ρ × σ) := ⟨fun t s => (s.1, Tracing.note t s.2)⟩

/-- Work that adds an entry to the trace. -/
@[inline] def emit {σ : Type} [Tracing σ] (t : Trace) : Work σ Unit := Work.update (Tracing.note t)

/-- An event with a message and further fields. -/
def Trace.message (level : Level) (text : String) (fields : List (String × FieldValue)) : Trace :=
  .event level (("message", .text text) :: fields)

/-! ## Consoles -/

/-- A host state with an output and an input. -/
class Console (σ : Type) where
  /-- Prints a text. -/
  print : String → σ → σ
  /-- Takes the next line of the input with its line end, or fails to. The empty text stands for the
  end of the input. -/
  takeLine : σ → Except Fault String × σ

namespace Text

/-- The next line with its line feed, and what follows it. -/
def splitLine : List UInt8 → List UInt8 × List UInt8
  | [] => ([], [])
  | b :: bs =>
    if b = 10 then ([b], bs)
    else
      let rest := splitLine bs
      (b :: rest.1, rest.2)

/-- The text of some bytes, if they are valid UTF-8. -/
def ofBytes? (bytes : List UInt8) : Option String := String.fromUTF8? ⟨bytes.toArray⟩

/-- The line and the rest, put together again, are the input. -/
theorem splitLine_append (bs : List UInt8) : (splitLine bs).1 ++ (splitLine bs).2 = bs := by
  induction bs with
  | nil => rfl
  | cons b bs ih => by_cases h : b = 10 <;> simp [splitLine, h, ih]

end Text
end Deferral
