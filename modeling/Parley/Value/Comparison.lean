import Parley.Value.Order
import Parley.Value.Member

/-
The comparison operators of conditions.
-/

namespace Parley

inductive Comparison where
  | equal
  | unequal
  | ordered (r : Relation)
  | member
deriving DecidableEq, Repr

namespace Comparison

def ofSymbol? : String → Option Comparison
  | "=" | "==" => some .equal
  | "<>" | "!=" => some .unequal
  | ">" => some (.ordered .gt)
  | ">=" => some (.ordered .ge)
  | "<" => some (.ordered .lt)
  | "<=" => some (.ordered .le)
  | "in" => some .member
  | _ => none

def test : Comparison → Value → Value → Except Fault Bool
  | .equal, a, b => .ok (a.eq b)
  | .unequal, a, b => .ok (!a.eq b)
  | .ordered r, a, b => Value.order r a b
  | .member, a, b => a.isIn b

end Comparison
end Parley
