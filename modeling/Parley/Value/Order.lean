import Parley.Value.Equal

/-
The order of values: numbers by exact value, texts by code point, sequences of
one kind by their first elements that are not alike, sets by inclusion.  Nothing
else is ordered.
-/

namespace Parley

inductive Relation where
  | lt | le | gt | ge
deriving DecidableEq, Repr

namespace Relation

def symbol : Relation → String
  | .lt => "<"
  | .le => "<="
  | .gt => ">"
  | .ge => ">="

def holds : Relation → Ordering → Bool
  | .lt, o => o == .lt
  | .le, o => o != .gt
  | .gt, o => o == .gt
  | .ge, o => o != .lt

end Relation

namespace Value

def numericOrder (r : Relation) (a b : Value) : Except Fault Bool :=
  match a.numeric?, b.numeric? with
  | some x, some y =>
    match x.compare? y with
    | some o => .ok (r.holds o)
    | none => .ok false
  | _, _ => .error (.unordered r.symbol a.kind b.kind)

/-- Sets are ordered by inclusion, strictly if the relation is strict. -/
def setOrder (r : Relation) (a b : List Value) : Bool :=
  match r with
  | .le => allAmong a b
  | .lt => allAmong a b && a.length != b.length
  | .ge => allAmong b a
  | .gt => allAmong b a && a.length != b.length

mutual

def order (r : Relation) : Value → Value → Except Fault Bool
  | .text a, .text b => .ok (r.holds (compare a b))
  | .list a, .list b => orderList r a b
  | .tuple a, .tuple b => orderList r a b
  | .set a, .set b => .ok (setOrder r a b)
  | .bool a, b => numericOrder r (.bool a) b
  | .int a, b => numericOrder r (.int a) b
  | .float a, b => numericOrder r (.float a) b
  | .nan m, b => numericOrder r (.nan m) b
  | a, b => .error (.unordered r.symbol a.kind b.kind)
  termination_by structural a => a

def orderList (r : Relation) : List Value → List Value → Except Fault Bool
  | [], [] => .ok (r.holds .eq)
  | [], _ :: _ => .ok (r.holds .lt)
  | _ :: _, [] => .ok (r.holds .gt)
  | a :: as, b :: bs => if alike a b then orderList r as bs else order r a b
  termination_by structural a => a

end
end Value
end Parley
