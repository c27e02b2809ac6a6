import Parley.Expression.Check

/-
Swapping computed values into dialogue text.

Every replacement swaps the first occurrence of its placeholder and nothing else,
in document order.  A replacement with an empty placeholder is passed over.
-/

namespace Parley

/-- Puts `new` in place of the first occurrence of `old`. -/
def replaceFirst (old new : List Char) : List Char → List Char
  | [] => if old.isEmpty then new else []
  | c :: cs =>
    if old.isPrefixOf (c :: cs) then new ++ (c :: cs).drop old.length
    else c :: replaceFirst old new cs

theorem replaceFirst_append_self {old : List Char} (h : old ≠ []) (new rest : List Char) :
    replaceFirst old new (old ++ rest) = new ++ rest := by
  cases old with
  | nil => exact absurd rfl h
  | cons c cs => simp [replaceFirst]

theorem replaceFirst_cons {old : List Char} (new : List Char) {c : Char} {cs : List Char}
    (h : old.isPrefixOf (c :: cs) = false) :
    replaceFirst old new (c :: cs) = c :: replaceFirst old new cs := by
  rw [replaceFirst, h]
  rfl

namespace Value

/-- The text of a value as scripts spell it: nothing is empty, truth values are
in lower case and a whole float has no fraction. -/
def display : Value → Except Fault String
  | .null => .ok ""
  | .bool b => .ok (if b then "true" else "false")
  | .float x =>
    match Number.toInt? x with
    | some n => intText n
    | none => .ok (Number.text x)
  | v => v.plain

end Value

namespace Play

/-- What a replacement puts into the text; one that was compiled badly puts
nothing. -/
def replacementValue (ask : Ask) (r : Replacement) : Play Value :=
  match r.kind with
  | .function => function ask (.ofOption r.function) r.args
  | .scalar => reading fun b => b.resolve .boolean r.value
  | .error => pure (.text "")

def interpolate (ask : Ask) : List Replacement → List Char → Play (List Char)
  | [], text => pure text
  | r :: rs, text =>
    if r.placeholder == "" then interpolate ask rs text
    else do
      let v ← replacementValue ask r
      let new ← Act.ofExcept v.display
      interpolate ask rs (replaceFirst r.placeholder.toList new.toList text)

end Play
end Parley
