import Parley.Shown

/-
The values scripts and hosts exchange.

A mapping keeps its entries in insertion order and a set its elements in the
order they were given, integers in ascending order; neither holds two equal keys
or elements.

A not-a-number equals nothing, not even itself, yet a container finds the very
one that it holds.  So every not-a-number that can stand in a container bears a
mark, and two of them are the same one when their marks are equal.
-/

namespace Parley

/-- A callable attribute of a host state, known by its owner and name.  A routine
is a method of its owner; any other callable is also an ordinary property. -/
structure Callable where
  owner : Nat
  name : String
  isRoutine : Bool
deriving DecidableEq, Repr

/-- Tells one not-a-number from another: by its place among the values given from
outside, or among those a session made. -/
inductive Mark where
  | given (n : Nat)
  | made (n : Nat)
deriving DecidableEq, Repr

inductive Value where
  | null
  | bool (b : Bool)
  | int (n : Int)
  /-- A float; a not-a-number in this form has just come out of arithmetic and is
  the same as no other value. -/
  | float (x : Float)
  | nan (mark : Mark)
  | text (s : String)
  | list (xs : List Value)
  | tuple (xs : List Value)
  | set (xs : List Value)
  | dict (entries : List (Value × Value))
  | callable (c : Callable)
  | line (l : Shown)

instance : Inhabited Value := ⟨.null⟩

inductive Kind where
  | null | bool | int | float | text | list | tuple | set | dict | callable | line
deriving DecidableEq, Repr

def Kind.label : Kind → String
  | .null => "NoneType"
  | .bool => "bool"
  | .int => "int"
  | .float => "float"
  | .text => "str"
  | .list => "list"
  | .tuple => "tuple"
  | .set => "set"
  | .dict => "dict"
  | .callable => "function"
  | .line => "DialogueLine"

namespace Value

def kind : Value → Kind
  | .null => .null
  | .bool _ => .bool
  | .int _ => .int
  | .float _ | .nan _ => .float
  | .text _ => .text
  | .list _ => .list
  | .tuple _ => .tuple
  | .set _ => .set
  | .dict _ => .dict
  | .callable _ => .callable
  | .line _ => .line

/-- What a bare value counts for where a truth value is wanted: nothing, zero and
emptiness are false, all else is true. -/
def truthy : Value → Bool
  | .null => false
  | .bool b => b
  | .int n => n != 0
  | .float x => x != 0.0
  | .text s => s != ""
  | .list xs | .tuple xs | .set xs => !xs.isEmpty
  | .dict es => !es.isEmpty
  | .nan _ | .callable _ | .line _ => true

def int? : Value → Option Int
  | .int n => some n
  | _ => none

def elements? : Value → Option (List Value)
  | .list xs | .tuple xs => some xs
  | _ => none

end Value
end Parley
