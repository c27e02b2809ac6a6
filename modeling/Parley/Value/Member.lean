import Parley.Value.Text

/-
Membership: keys of a mapping, elements of a sequence or set, parts of a text.
-/

namespace Parley

def isInfix (needle : List Char) : List Char → Bool
  | [] => needle.isEmpty
  | c :: cs => needle.isPrefixOf (c :: cs) || isInfix needle cs

namespace Value

/-- Whether `x` is an element of a set; a set is never an element of one. -/
def inSet (x : Value) (xs : List Value) : Except Fault Bool :=
  match x with
  | .set _ => .ok false
  | x => x.checkKey.map fun _ => x.among xs

/-- The test behind `in`.  A text contains the text of any value that it has as a
part; what is no container contains nothing. -/
def isIn (x container : Value) : Except Fault Bool :=
  match container with
  | .dict es => Table.contains es x
  | .text s => x.plain.map fun t => isInfix t.toList s.toList
  | .list xs | .tuple xs => .ok (x.among xs)
  | .set xs => inSet x xs
  | _ => .ok false

end Value
end Parley
