import Parley.Value.Equal
import Parley.Number.Notation

/-
Reading a document from JSON text.

The grammar is the standard one, with the names of infinity and not-a-number
added to the numbers.  A number with neither point nor exponent is an integer.
Of two equal keys in an object the last one counts.
-/

namespace Parley
namespace Json

def depthLimit : Nat := 200

def isSpace (c : Char) : Bool := c == ' ' || c == '\t' || c == '\n' || c == '\r'

def skip (cs : List Char) : List Char := cs.dropWhile isSpace

/-- The rest of a text after a given start. -/
def after? : List Char → List Char → Option (List Char)
  | [], cs => some cs
  | w :: ws, c :: cs => if w == c then after? ws cs else none
  | _ :: _, [] => none

def hexDigit? (c : Char) : Option Nat :=
  if c.isDigit then some (c.toNat - '0'.toNat)
  else if 'a' ≤ c && c ≤ 'f' then some (c.toNat - 'a'.toNat + 10)
  else if 'A' ≤ c && c ≤ 'F' then some (c.toNat - 'A'.toNat + 10)
  else none

def unit? : List Char → Option (Nat × List Char)
  | a :: b :: c :: d :: cs => do
    let a ← hexDigit? a
    let b ← hexDigit? b
    let c ← hexDigit? c
    let d ← hexDigit? d
    return (((a * 16 + b) * 16 + c) * 16 + d, cs)
  | _ => none

/-- A character written as one unit of sixteen bits, or as a high and a low one
for a character beyond them.  A unit without its partner is refused. -/
def escaped? (cs : List Char) : Option (Char × List Char) := do
  let (hi, cs) ← unit? cs
  if 0xD800 ≤ hi && hi < 0xDC00 then
    let (lo, cs) ← (after? ['\\', 'u'] cs).bind unit?
    if 0xDC00 ≤ lo && lo < 0xE000 then
      return (Char.ofNat (0x10000 + (hi - 0xD800) * 0x400 + (lo - 0xDC00)), cs)
    else none
  else if 0xDC00 ≤ hi && hi < 0xE000 then none
  else return (Char.ofNat hi, cs)

def shortEscape? : Char → Option Char
  | '"' => some '"'
  | '\\' => some '\\'
  | '/' => some '/'
  | 'b' => some '\x08'
  | 'f' => some '\x0c'
  | 'n' => some '\n'
  | 'r' => some '\r'
  | 't' => some '\t'
  | _ => none

/-- The rest of a text in quotes, up to and without the closing one. -/
def text? : Nat → List Char → Option (List Char × List Char)
  | 0, _ => none
  | _ + 1, [] => none
  | fuel + 1, c :: cs =>
    if c == '"' then some ([], cs)
    else if c == '\\' then
      match cs with
      | 'u' :: cs => do
        let (c, cs) ← escaped? cs
        let (t, cs) ← text? fuel cs
        return (c :: t, cs)
      | c :: cs => do
        let c ← shortEscape? c
        let (t, cs) ← text? fuel cs
        return (c :: t, cs)
      | [] => none
    else if c.toNat < 0x20 then none
    else do
      let (t, cs) ← text? fuel cs
      return (c :: t, cs)

/-- The point and digits after it, if there are any, and the rest. -/
def fraction? : List Char → Option (List Char × List Char)
  | '.' :: cs =>
    let (ds, rest) := Number.spanDigits cs
    if ds.isEmpty then none else some (ds, rest)
  | cs => some ([], cs)

/-- The exponent, if there is one, and the rest. -/
def exponent? : List Char → Option (Option Int × List Char)
  | c :: cs =>
    if c == 'e' || c == 'E' then
      let (negative, cs) := Number.spanSign cs
      let (ds, rest) := Number.spanDigits cs
      if ds.isEmpty then none
      else some (some (Number.Exact.signed negative (Number.ofDigits ds)), rest)
    else some (none, c :: cs)
  | [] => some (none, [])

/-- A number without its minus. -/
def unsigned? (negative : Bool) (cs : List Char) : Option (Value × List Char) := do
  let (whole, rest) := Number.spanDigits cs
  if whole.isEmpty || (whole.length > 1 && whole.head? == some '0') then none
  else
    let (fraction, rest) ← fraction? rest
    let (exponent, rest) ← exponent? rest
    if fraction.isEmpty && exponent.isNone then
      if whole.length ≤ digitLimit then
        return (.int (Number.Exact.signed negative (Number.ofDigits whole)), rest)
      else none
    else
      let x := Number.ofDecimal negative (Number.ofDigits (whole ++ fraction))
        (exponent.getD 0 - fraction.length)
      return (.float x, rest)

def number? (cs : List Char) : Option (Value × List Char) :=
  match cs with
  | '-' :: cs =>
    match after? "Infinity".toList cs with
    | some rest => some (.float (-(1.0 / 0.0)), rest)
    | none => unsigned? true cs
  | cs => unsigned? false cs

def words : List (String × Value) :=
  [("null", .null), ("true", .bool true), ("false", .bool false),
    ("NaN", .float (0.0 / 0.0)), ("Infinity", .float (1.0 / 0.0))]

def word? (cs : List Char) : Option (Value × List Char) :=
  words.findSome? fun w => (after? w.1.toList cs).map fun rest => (w.2, rest)

mutual

def value? : Nat → Nat → List Char → Option (Value × List Char)
  | 0, _, _ => none
  | fuel + 1, depth, cs =>
    match skip cs with
    | '"' :: cs => (text? (fuel + 1) cs).map fun (t, rest) => (.text (String.ofList t), rest)
    | '[' :: cs =>
      match skip cs with
      | ']' :: rest => some (.list [], rest)
      | cs =>
        match depth with
        | 0 => none
        | depth + 1 => (elements? fuel depth cs).map fun (vs, rest) => (.list vs, rest)
    | '\x7b' :: cs =>
      match skip cs with
      | '\x7d' :: rest => some (.dict [], rest)
      | cs =>
        match depth with
        | 0 => none
        | depth + 1 =>
          (members? fuel depth cs).map fun (es, rest) => (.dict (Table.ofList es), rest)
    | cs => (word? cs).orElse fun _ => number? cs

def elements? : Nat → Nat → List Char → Option (List Value × List Char)
  | 0, _, _ => none
  | fuel + 1, depth, cs => do
    let (v, rest) ← value? fuel depth cs
    match skip rest with
    | ',' :: rest => do
      let (vs, rest) ← elements? fuel depth rest
      return (v :: vs, rest)
    | ']' :: rest => return ([v], rest)
    | _ => none

def members? : Nat → Nat → List Char → Option (List (Value × Value) × List Char)
  | 0, _, _ => none
  | fuel + 1, depth, cs => do
    match skip cs with
    | '"' :: cs =>
      let (k, rest) ← text? (fuel + 1) cs
      match skip rest with
      | ':' :: rest =>
        let (v, rest) ← value? fuel depth rest
        let entry := (Value.text (String.ofList k), v)
        match skip rest with
        | ',' :: rest => do
          let (es, rest) ← members? fuel depth rest
          return (entry :: es, rest)
        | '\x7d' :: rest => return ([entry], rest)
        | _ => none
      | _ => none
    | _ => none

end

/-- The value a text stands for, absent when it is not JSON.  Every step takes a
character, so the length of the text bounds the steps. -/
def read? (s : String) : Option Value :=
  let cs := s.toList
  match value? (2 * cs.length + 2) depthLimit cs with
  | some (v, rest) => if (skip rest).isEmpty then some v else none
  | none => none

end Json
end Parley
