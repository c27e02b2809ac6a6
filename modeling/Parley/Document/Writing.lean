import Parley.Document.Basic

/-
Documents and lines written out as values, with every field present.

A field that takes any value may hold one in which a host has left a line.  Such a line is
written out as its fields, like the record around it.
-/

namespace Parley

def Value.ofOption : Option String → Value
  | some s => .text s
  | none => .null

def Value.record (fields : List (String × Value)) : Value :=
  .dict (fields.map fun f => (.text f.1, f.2))

/-! ## Lines that were handed over -/

def Response.toValue (r : Response) : Value :=
  .record [("prompt", .text r.prompt), ("nextId", .text r.nextId)]

/-- A line by its fields, with the change it carries. -/
def Shown.record (l : Shown) (mutation : Value) : Value :=
  .record [
    ("type", .text l.kind.word),
    ("nextId", .text l.nextId),
    ("character", .ofOption l.character),
    ("dialogue", .ofOption l.dialogue),
    ("mutation", mutation),
    ("responses", .list (l.responses.map Response.toValue))]

/-- A line that was handed to a host, which never carries a change to make. -/
def Shown.toValue (l : Shown) : Value := l.record .null

namespace Value

mutual

/-- A value as it is written out: the lines it holds are written out too.  Keys are left
alone, since a line is no key. -/
def dumped : Value → Value
  | .line l => l.toValue
  | .list xs => .list (dumpedAll xs)
  | .tuple xs => .tuple (dumpedAll xs)
  | .set xs => .set (dumpedAll xs)
  | .dict es => .dict (dumpedEntries es)
  | v => v
  termination_by structural v => v

def dumpedAll : List Value → List Value
  | [] => []
  | x :: xs => x.dumped :: dumpedAll xs
  termination_by structural xs => xs

def dumpedEntries : List (Value × Value) → List (Value × Value)
  | [] => []
  | (k, v) :: es => (k, v.dumped) :: dumpedEntries es
  termination_by structural es => es

end

end Value

/-! ## Documents -/

def Expression.toValue (e : Expression) : Value :=
  .record [
    ("lhs_type", .text e.lhsKind.word),
    ("lhs_function", .ofOption e.lhsFunction),
    ("lhs_args", .list (Value.dumpedAll e.lhsArgs)),
    ("lhs", e.lhs.dumped),
    ("operator", .ofOption e.operator),
    ("rhs_type", .ofOption (e.rhsKind.map SideKind.word)),
    ("rhs_function", .ofOption e.rhsFunction),
    ("rhs_args", .list (Value.dumpedAll e.rhsArgs)),
    ("rhs", e.rhs.dumped)]

def Expression.optionToValue : Option Expression → Value
  | some e => e.toValue
  | none => .null

def Replacement.toValue (r : Replacement) : Value :=
  .record [
    ("type", .text r.kind.word),
    ("value", r.value.dumped),
    ("value_in_text", .text r.placeholder),
    ("function", .ofOption r.function),
    ("args", .list (Value.dumpedAll r.args))]

def Node.toValue (n : Node) : Value :=
  .record [
    ("type", .text n.kind.word),
    ("next_id", .text n.nextId),
    ("next_conditional_id", .text n.nextConditionalId),
    ("next_id_after", .text n.nextIdAfter),
    ("character", .text n.character),
    ("text", .text n.text),
    ("condition", Expression.optionToValue n.condition),
    ("mutation", Expression.optionToValue n.mutation),
    ("replacements", .list (n.replacements.map Replacement.toValue)),
    ("responses", .list (n.responses.map .text))]

def Resource.toValue (r : Resource) : Value :=
  .record [
    ("titles", .record (r.titles.map fun t => (t.1, .text t.2))),
    ("lines", .record (r.lines.map fun l => (l.1, l.2.toValue)))]

def Line.toValue (l : Line) : Value := l.toShown.record (Expression.optionToValue l.mutation)

end Parley
