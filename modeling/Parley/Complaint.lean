import Parley.Value.Text

/-
The faults of this library's own making, as a host may build them.

Each kind belongs to the general kind and, the general one apart, to the outside
category it most resembles, so that a host can catch either.
-/

namespace Parley

inductive ComplaintKind where
  | general
  | noResource
  | inProgress
  | notExported
  | unknownProperty
  | unknownMethod
deriving DecidableEq, Repr

/-- The outside categories that complaints resemble. -/
inductive Resemblance where
  | misuse
  | badValue
  | absence
deriving DecidableEq, Repr

namespace ComplaintKind

def all : List ComplaintKind :=
  [.general, .noResource, .inProgress, .notExported, .unknownProperty, .unknownMethod]

def label : ComplaintKind → String
  | .general => "DialogueError"
  | .noResource => "MissingResourceError"
  | .inProgress => "DialogueInProgressError"
  | .notExported => "ExportError"
  | .unknownProperty => "UnknownStatePropertyError"
  | .unknownMethod => "UnknownStateFunctionError"

def ofLabel? (s : String) : Option ComplaintKind := all.find? (·.label == s)

theorem ofLabel?_label (k : ComplaintKind) : ofLabel? k.label = some k := by
  cases k <;> decide

def resembles? : ComplaintKind → Option Resemblance
  | .general => none
  | .noResource | .inProgress => some .misuse
  | .notExported => some .badValue
  | .unknownProperty | .unknownMethod => some .absence

def kinds : ComplaintKind → List ComplaintKind
  | .general => [.general]
  | k => [k, .general]

end ComplaintKind

def Fault.complaint? : Fault → Option ComplaintKind
  | .noResource => some .noResource
  | .inProgress => some .inProgress
  | .notExported _ => some .notExported
  | .unknownProperty _ => some .unknownProperty
  | .unknownMethod _ => some .unknownMethod
  | _ => none

structure Complaint where
  kind : ComplaintKind
  message : String
  part : Option Value := none

namespace Complaint

/-- The text of a list of parts: none is empty, and one stands for itself. -/
def joined : List Value → Except Fault String
  | [] => .ok ""
  | [v] => v.plain
  | vs => Value.written (.tuple vs)

/-- The fault of giving too many arguments.  The complaint itself counts as one. -/
def tooMany (kind : ComplaintKind) (allowed : String) (given : Nat) : Fault :=
  .wrongArguments <|
    kind.label ++ ".__init__() takes " ++ allowed ++ " positional arguments but " ++
      (given + 1).repr ++ " were given"

/-- A complaint whose message is its only argument, or a standard one. -/
def withMessage (kind : ComplaintKind) (standard : Fault) :
    List Value → Except Fault Complaint
  | [] => .ok { kind, message := standard.message }
  | [v] => v.plain.map fun message => { kind, message }
  | vs => .error (tooMany kind "from 1 to 2" vs.length)

def aboutName (kind : ComplaintKind) (fault : String → Fault) :
    List Value → Except Fault Complaint
  | [] => .error <| .wrongArguments <|
    kind.label ++ ".__init__() missing 1 required positional argument: 'name'"
  | [v] => v.plain.map fun name => { kind, message := (fault name).message }
  | vs => .error (tooMany kind "2" vs.length)

def aboutPart : List Value → Except Fault Complaint
  | [] => .ok {
      kind := .notExported, message := (Fault.notExported "expression").message,
      part := some (.text "expression") }
  | [v] => v.plain.map fun part =>
    { kind := .notExported, message := (Fault.notExported part).message, part := some v }
  | vs => .error (tooMany .notExported "from 1 to 2" vs.length)

def build (kind : ComplaintKind) (args : List Value) : Except Fault Complaint :=
  match kind with
  | .general => (joined args).map fun message => { kind, message }
  | .noResource => withMessage kind .noResource args
  | .inProgress => withMessage kind .inProgress args
  | .notExported => aboutPart args
  | .unknownProperty => aboutName kind .unknownProperty args
  | .unknownMethod => aboutName kind .unknownMethod args

end Complaint
end Parley
