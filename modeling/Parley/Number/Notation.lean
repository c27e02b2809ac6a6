import Parley.Number.Shortest

/-
Decimal notation for floats: how chosen digits are laid out, and which texts
read as a number.
-/

namespace Parley
namespace Number

/-- Where positional notation ends and how the other notation looks. -/
structure Layout where
  /-- Least exponent of the leading digit that is written positionally. -/
  positionalFrom : Int
  /-- Greatest exponent of the leading digit that is written positionally. -/
  positionalTo : Int
  /-- Least number of exponent digits. -/
  exponentWidth : Nat
  infinity : String
  notANumber : String

/-- Numbers are positional from `0.0001` up to sixteen whole digits and keep a
fraction digit there; beyond, the exponent has a sign and at least two digits. -/
def layout : Layout :=
  { positionalFrom := -4, positionalTo := 15, exponentWidth := 2,
    infinity := "inf", notANumber := "nan" }

namespace Layout

def zeros (n : Nat) : List Char := List.replicate n '0'

/-- Digits with a decimal point after the first `whole` of them; missing whole
digits are filled with zeros and an empty side gets one zero. -/
def positional (ds : List Char) (whole : Int) : List Char :=
  if whole ≤ 0 then '0' :: '.' :: zeros (-whole).toNat ++ ds
  else
    let w := whole.toNat
    let fraction := ds.drop w
    ds.take w ++ zeros (w - ds.length) ++ '.' :: (if fraction.isEmpty then ['0'] else fraction)

/-- One digit before the point and an exponent after the mark. -/
def scientific (l : Layout) (ds : List Char) (e : Int) : List Char :=
  let fraction := ds.drop 1
  let digits := Nat.toDigits 10 e.natAbs
  ds.take 1 ++ (if fraction.isEmpty then [] else '.' :: fraction) ++
    'e' :: (if e < 0 then '-' else '+') :: zeros (l.exponentWidth - digits.length) ++ digits

def finite (l : Layout) (x : Exact) : List Char :=
  let body :=
    if x.mantissa == 0 then "0.0".toList
    else
      let d := Decimal.shortest x.mantissa x.exponent
      let ds := Nat.toDigits 10 d.digits
      let e := d.exponent + ds.length - 1
      if l.positionalFrom ≤ e ∧ e ≤ l.positionalTo then positional ds (e + 1)
      else l.scientific ds e
  if x.negative then '-' :: body else body

/-- The text of a float in a given layout. -/
def text (l : Layout) (x : Float) : String :=
  if x.isNaN then l.notANumber
  else match Exact.ofFloat? x with
    | some e => String.ofList (l.finite e)
    | none => if x < 0.0 then "-" ++ l.infinity else l.infinity

end Layout

def text (x : Float) : String := layout.text x

/-! ## Reading -/

def digitValue (c : Char) : Nat := c.toNat - '0'.toNat

/-- The number a run of digits stands for, most significant first. -/
def ofDigits (ds : List Char) : Nat := ds.foldl (fun n c => 10 * n + digitValue c) 0

/-- A run of digits at the front of a text, and the rest. -/
def spanDigits (cs : List Char) : List Char × List Char :=
  (cs.takeWhile Char.isDigit, cs.dropWhile Char.isDigit)

/-- An optional sign at the front of a text: whether it is a minus, and the rest. -/
def spanSign : List Char → Bool × List Char
  | '-' :: cs => (true, cs)
  | '+' :: cs => (false, cs)
  | cs => (false, cs)

/-- An exponent part that fills the whole text: absent, or a mark, an optional
sign and at least one digit. -/
def exponent? : List Char → Option Int
  | [] => some 0
  | c :: cs =>
    if c == 'e' || c == 'E' then
      let (negative, cs) := spanSign cs
      let (ds, rest) := spanDigits cs
      if ds.isEmpty || !rest.isEmpty then none else some (Exact.signed negative (ofDigits ds))
    else none

/-- The float nearest to `digits * 10 ^ exponent`. -/
def ofDecimal (negative : Bool) (digits : Nat) (exponent : Int) : Float :=
  let x := Float.ofScientific digits (exponent < 0) exponent.natAbs
  if negative then -x else x

/-- Reads an unsigned decimal: digits on at least one side of an optional point,
then an optional exponent. -/
def unsigned? (negative : Bool) (cs : List Char) : Option Float :=
  let (whole, rest) := spanDigits cs
  let (fraction, rest) := match rest with
    | '.' :: rest => spanDigits rest
    | _ => ([], rest)
  if whole.isEmpty && fraction.isEmpty then none
  else (exponent? rest).map fun e =>
    ofDecimal negative (ofDigits (whole ++ fraction)) (e - fraction.length)

/-- Reads a float in ASCII decimal notation, or one of the names of infinity and
not-a-number in any case. -/
def read? (cs : List Char) : Option Float :=
  let (negative, rest) := spanSign cs
  let word := String.ofList (rest.map Char.toLower)
  if word == "inf" || word == "infinity" then
    some (if negative then -(1.0 / 0.0) else 1.0 / 0.0)
  else if word == "nan" then some (0.0 / 0.0)
  else unsigned? negative rest

end Number
end Parley
