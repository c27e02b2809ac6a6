import Parley.Number.Exact

/-
The fewest decimal digits that read back to a float.

The reals that round to a float form an interval whose ends lie halfway to its
neighbours and belong to it exactly when its mantissa is even.  `shortest` tries
grids of one, two, up to seventeen digits and takes the first grid with a point
in that interval; of two such points it takes the nearer.
-/

namespace Parley
namespace Number

/-- The number `digits * 10 ^ exponent`. -/
structure Decimal where
  digits : Nat
  exponent : Int
deriving DecidableEq, Repr

namespace Decimal

/-- Compares `a * 10 ^ i` with `m * 2 ^ q` over a common denominator. -/
def compareScaled (a : Nat) (i : Int) (m : Nat) (q : Int) : Ordering :=
  compare (a * Nat.pow 10 i.toNat * Nat.pow 2 (-q).toNat)
    (m * Nat.pow 2 q.toNat * Nat.pow 10 (-i).toNat)

/-- Whether `d` lies among the reals that round to the positive value
`m * 2 ^ q`.  Below a power of two the gap to the next float is half as wide,
except at the bottom of the exponent range. -/
def readsBack (m : Nat) (q : Int) (d : Decimal) : Bool :=
  let narrow := m == Nat.pow 2 52 && q > -1074
  let low := if narrow then 4 * m - 1 else 4 * m - 2
  let below := compareScaled d.digits d.exponent low (q - 2)
  let above := compareScaled d.digits d.exponent (4 * m + 2) (q - 2)
  let closed := m % 2 == 0
  (below == .gt || closed && below == .eq) && (above == .lt || closed && above == .eq)

/-- The least `k` with `m * 2 ^ q < 10 ^ k`, found by stepping from an estimate
that is never too large. -/
def magnitude (m : Nat) (q : Int) : Int :=
  let start : Int := (((m.log2 : Int) + q) * 30103).fdiv 100000 - 1
  match (List.range 5).find? fun (i : Nat) => compareScaled 1 (start + i) m q == .gt with
  | some i => start + i
  | none => start + 5

/-- Of the two grid points next to `m * 2 ^ q`, the nearer one that reads back;
at equal distance the even one. -/
def onGrid (m : Nat) (q e : Int) : Option Decimal :=
  let num := m * Nat.pow 2 q.toNat * Nat.pow 10 (-e).toNat
  let den := Nat.pow 2 (-q).toNat * Nat.pow 10 e.toNat
  let low : Decimal := { digits := num / den, exponent := e }
  let high : Decimal := { digits := num / den + 1, exponent := e }
  match readsBack m q low, readsBack m q high with
  | true, false => some low
  | false, true => some high
  | false, false => none
  | true, true =>
    match compare (2 * (num % den)) den with
    | .lt => some low
    | .gt => some high
    | .eq => some (if low.digits % 2 == 0 then low else high)

/-- Drops trailing zeros of the digits into the exponent, at most `n` of them. -/
def strip : Nat → Decimal → Decimal
  | 0, d => d
  | n + 1, d =>
    if d.digits != 0 && d.digits % 10 == 0 then
      strip n { digits := d.digits / 10, exponent := d.exponent + 1 }
    else d

/-- The shortest decimal that reads back to the positive value `m * 2 ^ q`.  Were
no grid of seventeen digits to have one, the exact value would be given. -/
def shortest (m : Nat) (q : Int) : Decimal :=
  let k := magnitude m q
  match (List.range 17).findSome? fun (n : Nat) => onGrid m q (k - 1 - n) with
  | some d => strip 17 d
  | none => { digits := m * Nat.pow 2 q.toNat * Nat.pow 5 (-q).toNat, exponent := min q 0 }

end Decimal
end Number
end Parley
