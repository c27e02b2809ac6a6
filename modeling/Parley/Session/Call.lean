import Parley.Session.Basic

/-
Calls of host methods and writes to host states.
-/

namespace Parley
namespace Play

/-- Runs the code of a method that belongs to the state at a place. -/
def routine (ask : Ask) (owner : Nat) : Routine → Play Value
  | .give v => pure v
  | .fail f => Act.fail f
  | .note r next => do
    note r.entry
    routine ask owner next
  | .read name next => do
    let v ← reading fun b => b.propertyAt owner (.text name)
    routine ask owner (next v)
  | .write name value next => do
    writing fun b => b.writeAt owner name value
    routine ask owner next
  | .keep value next => do
    let v ← keep value
    routine ask owner (next v)
  | .pause next => do
    Act.pause
    routine ask owner next
  | .request document key next => do
    let answer ← Act.attempt (ask document key)
    routine ask owner (next answer)

def invoke (ask : Ask) (c : Callable) (args : List Value) : Play Value := do
  match ← reading fun b => .ok (b.code? c) with
  | some code => routine ask c.owner (code args)
  | none => Act.fail (.notCallable .callable)

def callAt (ask : Ask) (i : Nat) (name : Value) (args : List Value) : Play Value := do
  let c ← reading fun b =>
    match b.hosts[i]? with
    | some h => h.callee i name
    | none => .error (Host.missingKey name)
  invoke ask c args

/-- The text of a name in a message, which may itself fail. -/
def failNaming {α : Type} (fault : String → Fault) (name : Value) : Play α := do
  let s ← Act.ofExcept name.plain
  Act.fail (fault s)

/-- What a call of a name without a method gives: a fault in strict mode and
falsehood else. -/
def callUnknown (name : Value) : Play Value := do
  if ← reading fun b => .ok b.strict then failNaming .unknownMethod name
  else pure (.bool false)

/-- Calls the first method with a name.  The arguments are read first. -/
def function (ask : Ask) (name : Value) (args : List Value) : Play Value := do
  let values ← reading fun b => b.valuesOf args
  match ← reading fun b => b.methodOwner? name with
  | some i => callAt ask i name values
  | none => callUnknown name

/-- Writes a property of the state at a place, through its setter if it has one. -/
def setAt (ask : Ask) (i : Nat) (name value : Value) : Play Unit := do
  let setter ← reading fun b =>
    match b.hosts[i]? with
    | some h => h.setter? i
    | none => .ok none
  match setter with
  | some c => do
    let _ ← invoke ask c [name, value]
  | none => writing fun b => b.writeAt i name value

/-- Writes a value under a name that no state has: a fault in strict mode, while
the shadow takes the value else. -/
def setUnknown (name value : Value) : Play Unit := do
  if ← reading fun b => .ok b.strict then failNaming .unknownProperty name
  else writing fun b => b.writeShadow name value

/-- Writes a value to the first state that has the name. -/
def set (ask : Ask) (name value : Value) : Play Unit := do
  match ← reading fun b => b.owner? name with
  | some i => setAt ask i name value
  | none => setUnknown name value

end Play
end Parley
