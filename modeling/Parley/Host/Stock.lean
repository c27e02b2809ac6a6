import Parley.Host.Basic
import Parley.Value.Arithmetic
import Parley.Value.Member

/-
A stock of host methods, each leaving a `call` entry before it does anything
else, and of setters.
-/

namespace Parley
namespace Stock

def called (name : String) (body : Code) : Code := fun args => .note (.call name args) (body args)

def delayed (pauses : Nat) (body : Code) : Code := fun args => .pauses pauses (body args)

def const (v : Value) : Code := fun _ => .give v

def echo : Code := fun args => .give (args.headD .null)

def args : Code := fun args => .give (.list args)

def count : Code := fun args => .give (.int args.length)

def get (attr : String) : Code := fun _ => .read attr .give

def put (attr : String) : Code := fun args =>
  .write (.text attr) (args.headD .null) (.give .null)

def ofExcept (next : Value → Routine) : Except Fault Value → Routine
  | .ok v => next v
  | .error f => .fail f

def incr (attr : String) : Code := fun _ =>
  .read attr fun v =>
    ofExcept (fun v => .keep v fun v => .write (.text attr) v (.give v))
      (Value.arith .add v (.int 1))

/-- Membership as a host tests it: unlike in scripts, only texts are part of a
text and what is no container cannot be asked. -/
def within (x container : Value) : Except Fault Value :=
  match container, x with
  | .text _, .text _ | .list _, _ | .tuple _, _ | .set _, _ | .dict _, _ =>
    (x.isIn container).map .bool
  | .text _, x => .error (.notSubstring x.kind)
  | v, _ => .error (.notContainer v.kind)

def has (attr : String) : Code := fun args =>
  match args with
  | [] => .give (.bool false)
  | x :: _ => .read attr fun v => ofExcept .give (within x v)

def fail (f : Fault) : Code := fun _ => .fail f

def shown : Option Shown → Value
  | some l => .line l
  | none => .null

def request (key : String) : Code := fun _ =>
  .request none key fun
    | .ok l => .give (shown l)
    | .error f => .fail f

/-- Asks for a line and gives it, or the name of the fault. -/
def tryRequest (faultName : Fault → String) (key : String) : Code := fun _ =>
  .request none key fun
    | .ok l => .give (shown l)
    | .error f => .give (.text (faultName f))

/-! ## Setters -/

/-- What a setter does with a name and a value. -/
inductive SetterKind where
  | store
  | ignore
  | reject (f : Fault)

def setterBody (kind : SetterKind) (name value : Value) : Routine :=
  .note (.set name value) <|
    match kind with
    | .store => .write name value (.give .null)
    | .ignore => .give .null
    | .reject f => .fail f

/-- The fault of a call with other than two arguments to the method `owner.set`. -/
def setterArity (owner : String) : Nat → Fault
  | 0 => .wrongArguments
    (owner ++ ".set() missing 2 required positional arguments: 'name' and 'value'")
  | 1 => .wrongArguments (owner ++ ".set() missing 1 required positional argument: 'value'")
  | n => .wrongArguments
    (owner ++ ".set() takes 3 positional arguments but " ++ (n + 1).repr ++ " were given")

/-- A setter takes a name and a value and nothing else. -/
def setter (kind : SetterKind) (owner : String) : Code := fun args =>
  match args with
  | [name, value] => setterBody kind name value
  | _ => .fail (setterArity owner args.length)

end Stock
end Parley
