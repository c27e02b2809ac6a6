import Parley.Fault
import Parley.Number.Exact

/-
Numbers inside values.  A boolean counts as 0 or 1.  Two integers are combined
exactly; once a float takes part, both sides are floats and an integer beyond
every float is a fault.
-/

namespace Parley

inductive Numeric where
  | int (n : Int)
  | float (x : Float)

namespace Numeric

/-- How two numbers compare as exact values; absent when one is not-a-number. -/
def compare? : Numeric → Numeric → Option Ordering
  | .int a, .int b => some (compare a b)
  | .int a, .float y => Number.compareInt a y
  | .float x, .int b => (Number.compareInt b x).map Ordering.swap
  | .float x, .float y =>
    if x < y then some .lt
    else if y < x then some .gt
    else if x == y then some .eq
    else none

def toFloat : Numeric → Except Fault Float
  | .float x => .ok x
  | .int n =>
    match Number.ofInt? n with
    | some x => .ok x
    | none => .error .tooLargeForFloat

/-- Combines two numbers, on integers if both are integers and on floats else. -/
def combine (onInt : Int → Int → Int) (onFloat : Float → Float → Float) :
    Numeric → Numeric → Except Fault Numeric
  | .int a, .int b => .ok (.int (onInt a b))
  | a, b => do
    let x ← a.toFloat
    let y ← b.toFloat
    return .float (onFloat x y)

def add : Numeric → Numeric → Except Fault Numeric := combine (· + ·) (· + ·)

def sub : Numeric → Numeric → Except Fault Numeric := combine (· - ·) (· - ·)

def mul : Numeric → Numeric → Except Fault Numeric := combine (· * ·) (· * ·)

/-- Division always gives a float.  The quotient of two integers is rounded once,
from its exact value. -/
def div : Numeric → Numeric → Except Fault Numeric
  | .int a, .int b =>
    if b == 0 then .error .divisionByZero
    else match Number.quotient? a b with
      | some x => .ok (.float x)
      | none => .error .quotientTooLarge
  | a, b => do
    let x ← a.toFloat
    let y ← b.toFloat
    if y == 0.0 then .error .floatDivisionByZero else return .float (x / y)

end Numeric

namespace Value

def fitsWord (n : Int) : Bool :=
  -9223372036854775808 ≤ n && n < 9223372036854775808

def ofNumeric : Numeric → Value
  | .int n => .int n
  | .float x => .float x

def numeric? : Value → Option Numeric
  | .bool b => some (.int (if b then 1 else 0))
  | .int n => some (.int n)
  | .float x => some (.float x)
  | .nan _ => some (.float (0.0 / 0.0))
  | _ => none

end Value
end Parley
