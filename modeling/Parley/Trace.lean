import Parley.Value.Basic
import Parley.Signal

/-
What can be seen from outside while a session runs, in order of occurrence.
-/

namespace Parley

inductive Level where
  | info
  | warning
  | error
deriving DecidableEq, Repr

def Level.label : Level → String
  | .info => "INFO"
  | .warning => "WARNING"
  | .error => "ERROR"

inductive Entry where
  /-- A host method was called. -/
  | call (name : String) (args : List Value)
  /-- A host was asked, through a setter of its own, to store a value. -/
  | set (name value : Value)
  /-- The built-in `wait` slept for some seconds. -/
  | wait (seconds : Float)
  | log (level : Level) (message : String)
  | announced (signal : Signal)
  /-- A listener ran, and saw the running signal as given. -/
  | listener (id : String) (running : Bool)
  | handler (id : String) (signal : Signal)

/-- What a host leaves in the trace by itself. -/
inductive Remark where
  | call (name : String) (args : List Value)
  | set (name value : Value)

def Remark.entry : Remark → Entry
  | .call name args => .call name args
  | .set name value => .set name value

end Parley
