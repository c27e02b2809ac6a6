/-
Floats as exact dyadic numbers.

A finite float is `± mantissa * 2 ^ exponent`.  Comparing a float with an
integer, asking whether it is whole and rounding a quotient are all done on that
exact value, so no answer depends on an intermediate rounding.
-/

namespace Parley
namespace Number

/-- The value `± mantissa * 2 ^ exponent`. -/
structure Exact where
  negative : Bool
  mantissa : Nat
  exponent : Int
deriving DecidableEq, Repr

namespace Exact

/-- The exact value of a float, absent for an infinity and for not-a-number. -/
def ofFloat? (x : Float) : Option Exact :=
  match x.toModel.unpack with
  | .finite s m e _ => some { negative := s == .negative, mantissa := m, exponent := e }
  | .zero s => some { negative := s == .negative, mantissa := 0, exponent := 0 }
  | .infinity _ | .notANumber => none

def signed (negative : Bool) (n : Nat) : Int := if negative then -(n : Int) else n

/-- The value over the common scale `2 ^ (-exponent)`: it equals
`numerator / 2 ^ scale`. -/
def numerator (x : Exact) : Int := signed x.negative (x.mantissa * Nat.pow 2 x.exponent.toNat)

def scale (x : Exact) : Nat := (-x.exponent).toNat

def toInt? (x : Exact) : Option Int :=
  let unit : Nat := Nat.pow 2 x.scale
  if x.numerator % unit == 0 then some (x.numerator / unit) else none

def compareInt (n : Int) (x : Exact) : Ordering :=
  compare (n * (Nat.pow 2 x.scale : Nat)) x.numerator

end Exact

/-- The integer a whole float stands for. -/
def toInt? (x : Float) : Option Int := (Exact.ofFloat? x).bind Exact.toInt?

/-- How an integer compares with a float, without rounding the integer; absent
for not-a-number. -/
def compareInt (n : Int) (x : Float) : Option Ordering :=
  if x.isNaN then none
  else match Exact.ofFloat? x with
    | some e => some (e.compareInt n)
    | none => some (if x < 0.0 then .gt else .lt)

def sign (negative : Bool) : Float.Model.UnpackedFloat.Sign :=
  if negative then .negative else .positive

/-- The float nearest to `n / d` with the given sign, ties to the even mantissa.
A zero numerator keeps its sign; a zero denominator gives not-a-number. -/
def ofRatio (negative : Bool) (n d : Nat) : Float :=
  if hd : 0 < d then
    .ofModel <| .pack <|
      if hn : 0 < n then
        Float.Model.UnpackedFloat.div .binary64
          (.finite (sign negative) n 0 hn) (.finite .positive d 0 hd)
      else .zero (sign negative)
  else 0.0 / 0.0

/-- The float nearest to an integer, absent when it lies beyond every finite
float. -/
def ofInt? (n : Int) : Option Float :=
  let x := ofRatio (n < 0) n.natAbs 1
  if x.isInf then none else some x

/-- The float nearest to the quotient of two integers, absent when it lies
beyond every finite float.  The divisor must not be zero. -/
def quotient? (n d : Int) : Option Float :=
  let x := ofRatio (xor (n < 0) (d < 0)) n.natAbs d.natAbs
  if x.isInf then none else some x

end Number
end Parley
