import Parley.Expression.Token
import Parley.Bindings

/-
The value of a scalar: a bare token, or a list of tokens.

Groups are resolved first, then multiplication and division, then addition and
subtraction.  Every intermediate text is quoted, so that it is never taken for a
name or another literal when it is read again.
-/

namespace Parley
namespace Bindings

def combine (b : Bindings) (hint : Hint) (op : Operator) (l r : Value) : Except Fault Value := do
  let x ← b.valueOf hint l
  let y ← b.valueOf hint r
  let z ← Value.apply op x y
  return z.quote

/-- The value of a list of tokens whose groups are resolved. -/
def total (b : Bindings) (hint : Hint) (ts : List Token) : Except Fault Value := do
  let ts ← Token.fold (b.combine hint) Operator.multiplicative [] ts
  let ts ← Token.fold (b.combine hint) Operator.additive [] ts
  match ts with
  | [t] =>
    match t.value with
    | some v => b.valueOf hint v
    | none => .error (.missingKey (Text.quoted "value"))
  | _ => .error (.notExported "expression")

mutual

def resolve (b : Bindings) (hint : Hint) : Value → Except Fault Value
  | .list ts => resolveTokens b hint ts
  | .tuple ts => resolveTokens b hint ts
  | v => b.valueOf hint v
  termination_by structural v => v

def resolveTokens (b : Bindings) (hint : Hint) : List Value → Except Fault Value
  | [] => .error (.notExported "expression")
  | t :: ts => do
    let first ← reduce b hint t
    let rest ← reduceAll b hint ts
    b.total hint (first :: rest)
  termination_by structural ts => ts

/-- A token whose group, if it is one, is replaced by its value. -/
def reduce (b : Bindings) (hint : Hint) : Value → Except Fault Token
  | .dict es =>
    if (Token.ofEntries es).isGroup then
      match resolveEntry b hint es with
      | .ok v => .ok (.operand v.quote)
      | .error f => .error f
    else .ok (Token.ofEntries es)
  | v => .error (.missingAttribute v.kind.label "get")
  termination_by structural v => v

def reduceAll (b : Bindings) (hint : Hint) : List Value → Except Fault (List Token)
  | [] => .ok []
  | t :: ts => do
    let first ← reduce b hint t
    let rest ← reduceAll b hint ts
    return first :: rest
  termination_by structural ts => ts

/-- The value of what a group holds. -/
def resolveEntry (b : Bindings) (hint : Hint) : List (Value × Value) → Except Fault Value
  | [] => b.valueOf hint .null
  | (k, v) :: rest => if Token.isKey "value" k then resolve b hint v else resolveEntry b hint rest
  termination_by structural es => es

end

end Bindings
end Parley
