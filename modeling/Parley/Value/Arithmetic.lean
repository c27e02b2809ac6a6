import Parley.Value.Equal

/-
The four operators on values.  Besides numbers, texts, lists and tuples of one
kind are joined by `+`, sequences are repeated by an integer on either side of
`*`, and `-` removes the elements of one set from another.
-/

namespace Parley

inductive Operator where
  | add | sub | mul | div
deriving DecidableEq, Repr

namespace Operator

def symbol : Operator → String
  | .add => "+"
  | .sub => "-"
  | .mul => "*"
  | .div => "/"

def onNumbers : Operator → Numeric → Numeric → Except Fault Numeric
  | .add => Numeric.add
  | .sub => Numeric.sub
  | .mul => Numeric.mul
  | .div => Numeric.div

end Operator

namespace Value

/-- Whether a value can be repeated by `*`. -/
def isSequence : Value → Bool
  | .text _ | .list _ | .tuple _ => true
  | _ => false

/-- An integer in the role of a count. -/
def count? : Value → Option Int
  | .bool b => some (if b then 1 else 0)
  | .int n => some n
  | _ => none

/-- A list repeated `n` times, and not at all for a negative `n`. -/
def repeatList {α : Type} (xs : List α) (n : Int) : List α := (List.replicate n.toNat xs).flatten

/-- Repeats a sequence.  Counts are limited to 64 bits. -/
def repeated (s count : Value) : Except Fault Value :=
  match count.count? with
  | none => .error (.notRepeatable count.kind)
  | some n =>
    if !fitsWord n then .error .repeatTooLarge
    else .ok <| match s with
      | .text t => .text (String.ofList (repeatList t.toList n))
      | .list xs => .list (repeatList xs n)
      | .tuple xs => .tuple (repeatList xs n)
      | v => v

/-- What an operator does on values that are not both numbers. -/
def combineOthers (op : Operator) (a b : Value) : Except Fault Value :=
  match op, a, b with
  | .add, .list xs, .list ys => .ok (.list (xs ++ ys))
  | .add, .tuple xs, .tuple ys => .ok (.tuple (xs ++ ys))
  | .add, .text s, .text t => .ok (.text (s ++ t))
  | .sub, .set xs, .set ys => .ok (.set (xs.filter fun x => !x.among ys))
  | .add, a, b =>
    if a.isSequence then .error (.notConcatenable a.kind b.kind)
    else .error (.unsupported "+" a.kind b.kind)
  | .mul, a, b =>
    if a.isSequence then repeated a b
    else if b.isSequence then repeated b a
    else .error (.unsupported "*" a.kind b.kind)
  | op, a, b => .error (.unsupported op.symbol a.kind b.kind)

def arith (op : Operator) (a b : Value) : Except Fault Value :=
  match a.numeric?, b.numeric? with
  | some x, some y => (op.onNumbers x y).map ofNumeric
  | _, _ => combineOthers op a b

end Value
end Parley
