import Parley.Value.Arithmetic
import Parley.Value.Text
import Parley.Literal

/-
Tokens of an expression, and folding runs of them.

An expression is a flat list of operands and operators.  Folding one precedence
level combines every operand, operator of that level and operand from left to
right; what a level does not know stays in place for the next.
-/

namespace Parley

namespace Operator

def all : List Operator := [.add, .sub, .mul, .div]

def multiplicative : List Operator := [.mul, .div]

def additive : List Operator := [.add, .sub]

def ofSymbol? (s : String) : Option Operator := all.find? (·.symbol == s)

/-- The operator a symbol stands for when an assignment mark follows it. -/
def ofAssignment? (s : String) : Option Operator := all.find? (fun op => op.symbol ++ "=" == s)

theorem ofSymbol?_symbol (op : Operator) : ofSymbol? op.symbol = some op := by
  cases op <;> decide

end Operator

namespace Value

/-- The sum of two values; once a text takes part, their texts are joined. -/
def plus (a b : Value) : Except Fault Value :=
  match a, b with
  | .text _, _ | _, .text _ => do
    let s ← a.plain
    let t ← b.plain
    return .text (s ++ t)
  | _, _ => arith .add a b

def apply : Operator → Value → Value → Except Fault Value
  | .add => plus
  | op => arith op

/-- A text in quotes, so that it reads back as itself; any other value as it is. -/
def quote : Value → Value
  | .text s => .text (Literal.quote s)
  | v => v

end Value

/-- A token: what it is, and what it holds, which may be missing. -/
structure Token where
  kind : Value
  value : Option Value

namespace Token

def isKey (name : String) (key : Value) : Bool := (Value.text name).alike key

def ofEntries (es : Table) : Token :=
  { kind := (Table.find? es (.text "type")).getD .null, value := Table.find? es (.text "value") }

def operand (v : Value) : Token := { kind := .text "value", value := some v }

def isOperator (t : Token) : Bool := t.kind.eq (.text "operator")

def isGroup (t : Token) : Bool := t.kind.eq (.text "group")

def raw (t : Token) : Value := t.value.getD .null

def operatorIn? (ops : List Operator) (t : Token) : Option Operator :=
  if t.isOperator then ops.find? fun op => t.raw.eq (.text op.symbol) else none

/-- Folds one precedence level.  The first list holds what was read already, last
token first.  An operator of the level must stand between two operands. -/
def fold (combine : Operator → Value → Value → Except Fault Value) (ops : List Operator) :
    List Token → List Token → Except Fault (List Token)
  | out, [] => .ok out.reverse
  | out, t :: ts =>
    match t.operatorIn? ops with
    | none => fold combine ops (t :: out) ts
    | some op =>
      match out, ts with
      | l :: out, r :: ts =>
        if l.isOperator || r.isOperator then .error (.notExported "expression")
        else
          match combine op l.raw r.raw with
          | .ok v => fold combine ops (operand v :: out) ts
          | .error f => .error f
      | _, _ => .error (.notExported "expression")

/-- Folding adds no token without a value. -/
theorem isSome_value_of_fold {combine : Operator → Value → Value → Except Fault Value}
    {ops : List Operator} {out ts us : List Token} (h : fold combine ops out ts = .ok us)
    (hout : ∀ u ∈ out, u.value.isSome) (hts : ∀ u ∈ ts, u.value.isSome) :
    ∀ u ∈ us, u.value.isSome := by
  fun_induction fold combine ops out ts with
  | case1 out =>
    cases h
    simpa using hout
  | case2 out t ts hop ih =>
    rw [List.forall_mem_cons] at hts
    exact ih h (List.forall_mem_cons.mpr ⟨hts.1, hout⟩) hts.2
  | case4 t op hop l out r ts hno v hv ih =>
    rw [List.forall_mem_cons] at hout
    rw [List.forall_mem_cons, List.forall_mem_cons] at hts
    exact ih h (List.forall_mem_cons.mpr ⟨rfl, hout.2⟩) hts.2.2
  | _ => cases h

end Token
end Parley
