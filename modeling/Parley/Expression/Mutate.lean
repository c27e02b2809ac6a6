import Parley.Expression.Check
import Parley.Number.Loose

/-
Changes to game state.

A call on the left side is run for its effect; `wait` and `debug` are built in.
A scalar on the left side is the name to assign to, and nothing happens without
an operator or with one that is not known.
-/

namespace Parley
namespace Play

def milliseconds : Value → Except Fault Float
  | .text s =>
    match Number.readLoose? s with
    | some x => .ok x
    | none => .error (.notFloatText s)
  | v =>
    match v.numeric? with
    | some n => n.toFloat
    | none => .error (.notNumeric v.kind)

/-- Sleeps for the first argument, in milliseconds. -/
def wait (args : List Value) : Play Unit := do
  let values ← reading fun b => b.valuesOf args
  let ms ← Act.ofExcept <|
    match values with
    | [] => .ok 0.0
    | v :: _ => milliseconds v
  note (.wait (ms / 1000.0))
  Act.pause

/-- Pairs the text of each argument token with its value; the last of two equal
texts counts. -/
def labelled : List Value → List Value → Except Fault Table
  | a :: args, v :: values => do
    let s ← a.plain
    let rest ← labelled args values
    return (.text s, v) :: rest
  | _, _ => .ok []

def debug (args : List Value) : Play Unit := do
  let values ← reading fun b => b.valuesOf args
  let entries ← Act.ofExcept (labelled args values)
  let shown ← Act.ofExcept (Value.written (.dict (Table.ofList entries)))
  log .info ("debug: " ++ shown)

def command (ask : Ask) (name : Option String) (args : List Value) : Play Unit :=
  match name with
  | some "wait" => wait args
  | some "debug" => debug args
  | name => do
    let _ ← function ask (.ofOption name) args

def assignTo (ask : Ask) (name value : Value) : Play Unit := do
  let v ← keep value
  set ask name v

/-- Assigns to a name what an operator makes of its value and another.  Both the
name and the other value must have a text. -/
def update (ask : Ask) (op : Operator) (name rhs : Value) : Play Unit := do
  let _ ← Act.ofExcept name.plain
  let _ ← Act.ofExcept rhs.written
  let current ← reading fun b =>
    b.valueOf (Hint.ofValue rhs) name
  let v ← Act.ofExcept (Value.apply op current rhs)
  assignTo ask name v

def assign (ask : Ask) (e : Expression) : Play Unit :=
  if e.hasOperator then do
    let rhs ← rightSide ask e "mutation"
    match e.operator with
    | some "=" => assignTo ask e.lhs rhs
    | some o =>
      match Operator.ofAssignment? o with
      | some op => update ask op e.lhs rhs
      | none => pure ()
    | none => pure ()
  else pure ()

def mutateExpression (ask : Ask) (e : Expression) : Play Unit :=
  match e.lhsKind with
  | .function => command ask e.lhsFunction e.lhsArgs
  | .error => Act.fail (.notExported "mutation")
  | .scalar => assign ask e

/-- Makes a change; an absent one changes nothing. -/
def mutate (ask : Ask) : Option Expression → Play Unit
  | none => pure ()
  | some e => mutateExpression ask e

end Play
end Parley
