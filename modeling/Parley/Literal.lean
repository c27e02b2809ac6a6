import Parley.Fault
import Parley.Text.Digit
import Parley.Number.Notation

/-
Literals: the token texts that stand for a value of their own and are never
looked up.  A quoted text is recognised first, then the words for truth and
falsehood, then integers, then numbers with a point.
-/

namespace Parley
namespace Literal

/-- What stands between the first and the last character if both are double
quotes; quotes in between are kept as they are. -/
def unquote? : List Char → Option (List Char)
  | '"' :: rest => if rest.getLast? == some '"' then some rest.dropLast else none
  | _ => none

/-- The truth value a word stands for, in any case of its letters. -/
def truthWord? (s : String) : Option Bool :=
  match s.toLower with
  | "true" | "yes" => some true
  | "false" | "no" => some false
  | _ => none

/-- An optional minus at the front of a text: whether it is there, and the rest. -/
def spanMinus : List Char → Bool × List Char
  | '-' :: cs => (true, cs)
  | cs => (false, cs)

/-- Reads an optional minus and digits of any script.  An integer with too many
digits is recognised but refused. -/
def integer? (cs : List Char) : Option (Except Fault Int) :=
  let (negative, ds) := spanMinus cs
  if ds.isEmpty || !ds.all Text.isDigit then none
  else some <|
    if ds.length ≤ digitLimit then
      .ok (Number.Exact.signed negative (Number.ofDigits (ds.map Text.plainDigit)))
    else .error (.tooManyDigits (some ds.length))

/-- Reads an optional minus, digits of any script around a point with at least
one of them, and an optional exponent. -/
def decimal? (cs : List Char) : Option Float :=
  let (negative, rest) := spanMinus (cs.map Text.plainDigit)
  if rest.contains '.' then Number.unsigned? negative rest else none

/-- The value of a literal, absent for any other text. -/
def read? (s : String) : Option (Except Fault Value) :=
  let cs := s.toList
  match unquote? cs with
  | some inner => some (.ok (.text (String.ofList inner)))
  | none =>
    match truthWord? s with
    | some b => some (.ok (.bool b))
    | none =>
      match integer? cs with
      | some n => some (n.map .int)
      | none => (decimal? cs).map fun x => .ok (.float x)

/-- Puts a text between double quotes, so that it reads back as itself. -/
def quote (s : String) : String := String.ofList ('"' :: s.toList ++ ['"'])

theorem unquote?_quote (cs : List Char) : unquote? ('"' :: (cs ++ ['"'])) = some cs := by
  simp [unquote?]

/-- Whatever a text looks like, its quoted form reads as the text itself. -/
theorem read?_quote (s : String) : read? (quote s) = some (.ok (.text s)) := by
  have h : (quote s).toList = '"' :: (s.toList ++ ['"']) := by simp [quote]
  simp [read?, h, unquote?_quote]

end Literal
end Parley
