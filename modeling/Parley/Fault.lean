import Parley.Value.Basic
import Parley.Text.Quoted

/-
Everything that can go wrong, by cause, and the wording of each cause.
-/

namespace Parley

/-- One step down into a document: a field or key, or a position in a list. -/
inductive PathStep where
  | name (s : String)
  | index (n : Int)
deriving DecidableEq, Repr

/-- What is wrong at a place of a document. -/
inductive Defect where
  | missing
  | notWord
  | notText
  | notList
  | notDict
  | notModel
  | extraField
  | badKey
  | noSuchField
  | frozen
  | notJson
deriving DecidableEq, Repr

structure Flaw where
  path : List PathStep
  defect : Defect
deriving DecidableEq, Repr

inductive Category where
  | missingAttribute
  | missingKey
  | other (name : String)
deriving DecidableEq, Repr

inductive Fault where
  /-- No document was passed and none is set. -/
  | noResource
  /-- A walk was asked for while another is under way. -/
  | inProgress
  /-- A condition, mutation or expression was compiled badly. -/
  | notExported (part : String)
  | unknownProperty (name : String)
  | unknownMethod (name : String)
  | unordered (symbol : String) (left right : Kind)
  | unsupported (symbol : String) (left right : Kind)
  | notConcatenable (left right : Kind)
  | notRepeatable (count : Kind)
  | repeatTooLarge
  | unhashable (kind : Kind)
  | notNumeric (kind : Kind)
  | notCallable (kind : Kind)
  | notIterable (kind : Kind)
  | notContainer (kind : Kind)
  | notSubstring (kind : Kind)
  | attributeNotText (kind : Kind)
  | divisionByZero
  | floatDivisionByZero
  | quotientTooLarge
  | tooLargeForFloat
  | notFloatText (text : String)
  | unknownEvent (name : String)
  /-- An integer with more digits than are read or written; the count is given
  when it was read. -/
  | tooManyDigits (count : Option Nat)
  | missingKey (shown : String)
  | missingAttribute (owner name : String)
  | readOnly (owner name : String)
  | wrongArguments (message : String)
  | raised (category : Category) (message : String)
  | invalid (flaws : List Flaw)
deriving DecidableEq, Repr

/-- The most digits of an integer that are read from or written to text. -/
def digitLimit : Nat := 4300

namespace Fault

def message : Fault → String
  | .noResource => "No dialogue resource provided"
  | .inProgress => "A dialogue line is already being resolved"
  | .notExported part => "This " ++ part ++ " was not exported properly"
  | .unknownProperty name => "'" ++ name ++ "' is not a property on any game state"
  | .unknownMethod name => "'" ++ name ++ "' is not a method on any game state"
  | .unordered symbol l r =>
    "'" ++ symbol ++ "' not supported between instances of '" ++ l.label ++ "' and '" ++
      r.label ++ "'"
  | .unsupported symbol l r =>
    "unsupported operand type(s) for " ++ symbol ++ ": '" ++ l.label ++ "' and '" ++
      r.label ++ "'"
  | .notConcatenable l r =>
    "can only concatenate " ++ l.label ++ " (not \"" ++ r.label ++ "\") to " ++ l.label
  | .notRepeatable k => "can't multiply sequence by non-int of type '" ++ k.label ++ "'"
  | .repeatTooLarge => "cannot fit 'int' into an index-sized integer"
  | .unhashable k => "unhashable type: '" ++ k.label ++ "'"
  | .notNumeric k =>
    "float() argument must be a string or a real number, not '" ++ k.label ++ "'"
  | .notCallable k => "'" ++ k.label ++ "' object is not callable"
  | .notIterable k => "'" ++ k.label ++ "' object is not iterable"
  | .notContainer k => "argument of type '" ++ k.label ++ "' is not iterable"
  | .notSubstring k => "'in <string>' requires string as left operand, not " ++ k.label
  | .attributeNotText k => "attribute name must be string, not '" ++ k.label ++ "'"
  | .divisionByZero => "division by zero"
  | .floatDivisionByZero => "float division by zero"
  | .quotientTooLarge => "integer division result too large for a float"
  | .tooLargeForFloat => "int too large to convert to float"
  | .notFloatText s => "could not convert string to float: " ++ Text.quoted s
  | .unknownEvent s => Text.quoted s ++ " is not a valid DialogueEvent"
  | .tooManyDigits count =>
    "Exceeds the limit (" ++ digitLimit.repr ++ " digits) for integer string conversion" ++
      (match count with
        | some n => ": value has " ++ n.repr ++ " digits"
        | none => "") ++
      "; use sys.set_int_max_str_digits() to increase the limit"
  | .missingKey shown => shown
  | .missingAttribute owner name => "'" ++ owner ++ "' object has no attribute '" ++ name ++ "'"
  | .readOnly owner name =>
    "property '" ++ name ++ "' of '" ++ owner ++ "' object has no setter"
  | .wrongArguments message => message
  | .raised .missingKey message => Text.quoted message
  | .raised _ message => message
  | .invalid _ => ""

/-- Whether the fault says that an attribute is absent, which a probe for the
attribute takes for an answer and not for a failure. -/
def isMissingAttribute : Fault → Bool
  | .missingAttribute _ _ | .readOnly _ _ | .unknownProperty _ | .unknownMethod _ => true
  | .raised .missingAttribute _ => true
  | _ => false

end Fault
end Parley
