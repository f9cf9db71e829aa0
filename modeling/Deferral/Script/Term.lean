import Deferral.Fault.Layout

/-!
# Scripts

The host code of an action can be written down as a script. A `Term` computes a value; an `Expr`
builds a carrier (an action, an optional value, a result) by the operations of the library. The
functions that operations are given are written as a parameter and a body.

Most operations exist in two forms: directly on actions, and generically on every carrier of the
right class (`Form`).
-/

namespace Deferral.Script

/-- Which form of an operation is meant: the one on actions, or the one generic over carriers. -/
inductive Form where
  | direct
  | generic
  deriving DecidableEq

/-- How a fault is made of a text. -/
inductive FaultOrigin where
  | message
  | panicked
  | plain
  | device (kind : String)
  | chained
  deriving DecidableEq

/-- The fault of an origin with a text. -/
def FaultOrigin.fault (text : String) : FaultOrigin → Fault
  | message => .message text
  | panicked => .panicked text
  | plain => .other (.plain text)
  | device kind => .other (.device kind text)
  | chained => .other (.chained text ("cause of " ++ text))

/-- The operations on values. -/
inductive Prim where
  | add | sub | mul | div | mod | lt | eq | not
  | concat | shown | length | lower
  | list | push | pair | fst | snd
  | some | none | ok | err | left | right
  /-- Adds a value to the log. -/
  | log
  /-- Reads a cell. -/
  | get (cell : String)
  /-- Writes a cell. -/
  | set (cell : String)
  /-- Panics with a text. -/
  | panicText
  /-- Panics without a text. -/
  | panicMute
  /-- Makes a fault of a text. -/
  | fault (origin : FaultOrigin)
  | faultDisplay | faultIsPanic | faultKind | faultText
  deriving DecidableEq

/-- Operations that hold a value. -/
inductive Holding where
  | value (form : Form)
  | failure (form : Form)
  | outcome (form : Form)
  | putLine
  | sleep
  deriving DecidableEq

/-- Operations that put off a term. -/
inductive Delaying where
  | work
  | fallible
  deriving DecidableEq

/-- Operations that change what a carrier holds by a function. -/
inductive Mapping where
  | map (form : Form)
  | recover (form : Form)
  | adapt
  | mapError
  deriving DecidableEq

/-- Operations on a carrier alone. -/
inductive Wrapping where
  | discard
  | observe (form : Form)
  | containPanic
  deriving DecidableEq

/-- Operations that go on with what a function builds. -/
inductive Chaining where
  | bind (form : Form)
  | andThen (form : Form)
  | tryCatch (form : Form)
  deriving DecidableEq

/-- Operations on two carriers. -/
inductive Joining where
  | zip (form : Form)
  | seqLeft
  | seqRight
  | followedBy (form : Form)
  | seq (form : Form)
  | orElse
  deriving DecidableEq

mutual

/-- Code that computes a value, strictly and from left to right. -/
inductive Term where
  | unit
  | bool (b : Bool)
  | int (n : Int64)
  | text (s : String)
  | var (x : String)
  /-- Names the value of a term in another. -/
  | bind (x : String) (t u : Term)
  /-- A function. -/
  | fn (x : String) (body : Term)
  /-- Applies a function. -/
  | call (f a : Term)
  /-- Computes all terms; the value is that of the last. -/
  | block (ts : List Term)
  /-- Computes one of two terms. -/
  | cond (c t u : Term)
  /-- Takes one of two branches by the side of a value. -/
  | cases (t : Term) (x : String) (a : Term) (y : String) (b : Term)
  /-- An operation on the values of terms. -/
  | prim (op : Prim) (args : List Term)
  /-- Builds a carrier and runs it at once. -/
  | run (e : Expr)

/-- Code that builds a carrier, strictly and from left to right. -/
inductive Expr where
  /-- Takes what a slot holds. -/
  | slot (name : String)
  /-- Builds one of two expressions. -/
  | cond (c : Term) (a b : Expr)
  /-- Names the value of a term in an expression. -/
  | bind (x : String) (t : Term) (e : Expr)
  /-- Computes a term before building. -/
  | after (t : Term) (e : Expr)
  /-- Takes one of two branches by the side of a value. -/
  | cases (t : Term) (x : String) (a : Expr) (y : String) (b : Expr)
  /-- Builds `first`, then `step` a number of times, each time with what was built so far in a
  slot. -/
  | repeated (times : Term) (name : String) (first step : Expr)
  /-- Holds no value. -/
  | absent
  /-- Takes a line of the input. -/
  | getLine
  | hold (op : Holding) (t : Term)
  | delay (op : Delaying) (t : Term)
  /-- Puts off the building of an expression. -/
  | defer (e : Expr)
  | map (op : Mapping) (e : Expr) (x : String) (body : Term)
  /-- Puts another value in place of the value. -/
  | mapConst (e : Expr) (t : Term)
  | wrap (op : Wrapping) (e : Expr)
  | chain (op : Chaining) (e : Expr) (x : String) (body : Expr)
  | join (op : Joining) (a b : Expr)
  | zipWith (form : Form) (a b : Expr) (x y : String) (body : Term)
  | loop (form : Form) (seed : Term) (x : String) (step : Expr)

end

end Deferral.Script
