import Parley.Document.Basic
import Parley.Fault
import Parley.Trace

/-
What the code of a host method may do: leave entries in the trace, read and write
the state it belongs to, pause, ask the session for a line, and end with a value
or a fault.
-/

namespace Parley

inductive Routine where
  | give (v : Value)
  | fail (f : Fault)
  | note (r : Remark) (next : Routine)
  /-- Reads a value of its own state; an absent one is a fault. -/
  | read (name : String) (next : Value → Routine)
  | write (name value : Value) (next : Routine)
  /-- Marks a value that arithmetic has just made, so that it can be kept. -/
  | keep (value : Value) (next : Value → Routine)
  | pause (next : Routine)
  /-- Asks the session for the line under a key, of the given document or else of
  the default one. -/
  | request (document : Option Resource) (key : String)
      (next : Except Fault (Option Shown) → Routine)

namespace Routine

def pauses : Nat → Routine → Routine
  | 0, r => r
  | n + 1, r => pause (pauses n r)

end Routine

abbrev Code := List Value → Routine

/-- An entry among the methods of a state; an inert one is there but cannot be
called. -/
inductive Method where
  | routine (code : Code)
  | inert (v : Value)

end Parley
