import Parley.Value.Equal
import Parley.Number.Notation

/-
The text of a value: bare for a text itself, otherwise as the value is written
out in full.
-/

namespace Parley

/-- The decimal text of an integer, refused beyond the digit limit. -/
def intText (n : Int) : Except Fault String :=
  if n.natAbs < Nat.pow 10 digitLimit then .ok (toString n) else .error (.tooManyDigits none)

namespace Shown

def optionText : Option String → String
  | some s => Text.quoted s
  | none => "None"

def kindText (k : NodeKind) : String :=
  "<LineType." ++ k.word.toUpper ++ ": " ++ Text.quoted k.word ++ ">"

def responseText (r : Response) : String :=
  "DialogueResponse(prompt=" ++ Text.quoted r.prompt ++ ", next_id=" ++ Text.quoted r.nextId ++ ")"

def fields (l : Shown) : List String :=
  ["type=" ++ kindText l.kind, "next_id=" ++ Text.quoted l.nextId,
    "character=" ++ optionText l.character, "dialogue=" ++ optionText l.dialogue,
    "mutation=None",
    "responses=[" ++ String.intercalate ", " (l.responses.map responseText) ++ "]"]

def text (l : Shown) : String := String.intercalate " " l.fields

def written (l : Shown) : String := "DialogueLine(" ++ String.intercalate ", " l.fields ++ ")"

end Shown

namespace Value

mutual

/-- A value written out: texts are quoted, a tuple of one keeps a comma and the
empty set has a name. -/
def written : Value → Except Fault String
  | .null => .ok "None"
  | .bool b => .ok (if b then "True" else "False")
  | .int n => intText n
  | .float x => .ok (Number.text x)
  | .nan _ => .ok (Number.text (0.0 / 0.0))
  | .text s => .ok (Text.quoted s)
  | .list xs => (writtenList xs).map fun ts => "[" ++ String.intercalate ", " ts ++ "]"
  | .tuple xs => (writtenList xs).map fun
    | [t] => "(" ++ t ++ ",)"
    | ts => "(" ++ String.intercalate ", " ts ++ ")"
  | .set xs => (writtenList xs).map fun
    | [] => "set()"
    | ts => "\x7b" ++ String.intercalate ", " ts ++ "\x7d"
  | .dict es => (writtenEntries es).map fun ts =>
    "\x7b" ++ String.intercalate ", " ts ++ "\x7d"
  | .callable c => .ok ("<function " ++ c.name ++ ">")
  | .line l => .ok l.written
  termination_by structural v => v

def writtenList : List Value → Except Fault (List String)
  | [] => .ok []
  | x :: xs => do
    let t ← written x
    let ts ← writtenList xs
    return t :: ts
  termination_by structural xs => xs

def writtenEntries : List (Value × Value) → Except Fault (List String)
  | [] => .ok []
  | (k, v) :: es => do
    let s ← written k
    let t ← written v
    let ts ← writtenEntries es
    return (s ++ ": " ++ t) :: ts
  termination_by structural es => es

end

def plain : Value → Except Fault String
  | .text s => .ok s
  | .line l => .ok l.text
  | v => v.written

end Value
end Parley
