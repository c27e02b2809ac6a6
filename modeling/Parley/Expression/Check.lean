import Parley.Expression.Resolve
import Parley.Session.Call
import Parley.Document.Writing
import Parley.Value.Comparison

/-
Conditions.

A side is a call or a scalar.  Without an operator the left side's own truth
decides, and an operator that is not known never holds.  When a scalar is
ordered against the right side, the right side is evaluated first and an unknown
name on the left takes a default that fits it.
-/

namespace Parley

namespace Expression

def hasOperator (e : Expression) : Bool := e.operator.getD "" != ""

def comparison? (e : Expression) : Option Comparison := e.operator.bind Comparison.ofSymbol?

end Expression

namespace Play

def rightSide (ask : Ask) (e : Expression) (part : String) : Play Value :=
  match e.rhsKind with
  | some .function => function ask (.ofOption e.rhsFunction) e.rhsArgs
  | some .error => Act.fail (.notExported part)
  | _ => reading fun b => b.resolve .boolean e.rhs

/-- Compares a left side that was evaluated first. -/
def checkAgainst (ask : Ask) (e : Expression) (lhs : Value) : Play Bool :=
  if e.hasOperator then do
    let rhs ← rightSide ask e "condition"
    match e.comparison? with
    | some c => Act.ofExcept (c.test lhs rhs)
    | none => pure false
  else pure lhs.truthy

def checkExpression (ask : Ask) (e : Expression) : Play Bool :=
  match e.lhsKind, e.comparison? with
  | .function, _ => do
    let lhs ← function ask (.ofOption e.lhsFunction) e.lhsArgs
    checkAgainst ask e lhs
  | .scalar, some (.ordered r) => do
    let rhs ← rightSide ask e "condition"
    let lhs ← reading fun b => b.resolve (Hint.ofValue rhs) e.lhs
    Act.ofExcept (Value.order r lhs rhs)
  | .scalar, _ => do
    let lhs ← reading fun b => b.resolve .boolean e.lhs
    checkAgainst ask e lhs
  | .error, _ => Act.fail (.notExported "condition")

/-- Whether a condition holds; an absent one does. -/
def check (ask : Ask) : Option Expression → Play Bool
  | none => pure true
  | some e => checkExpression ask e

end Play
end Parley
