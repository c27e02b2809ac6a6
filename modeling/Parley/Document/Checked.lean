import Parley.Value.Text

/-
Reading typed data out of values.  A reading either gives the data or every flaw
found, each with the path to its place.
-/

namespace Parley

def Checked (α : Type) : Type := Except (List Flaw) α

namespace Checked

variable {α β : Type}

def ok (a : α) : Checked α := Except.ok a

def flaw (d : Defect) : Checked α := Except.error [{ path := [], defect := d }]

def map (f : α → β) : Checked α → Checked β
  | .ok a => Except.ok (f a)
  | .error e => Except.error e

/-- Joins two readings and keeps the flaws of both. -/
def ap (f : Checked (α → β)) (x : Checked α) : Checked β :=
  match f, x with
  | .ok f, .ok a => Except.ok (f a)
  | .ok _, .error e => Except.error e
  | .error e, .ok _ => Except.error e
  | .error e, .error e' => Except.error (e ++ e')

/-- Puts a reading one step down in the document. -/
def under (step : PathStep) : Checked α → Checked α
  | .ok a => Except.ok a
  | .error e => Except.error (e.map fun f => { f with path := step :: f.path })

/-- Reads every element of a list at its position, starting from `i`. -/
def each (read : Value → Checked α) : Nat → List Value → Checked (List α)
  | _, [] => ok []
  | i, v :: vs => ((under (.index i) (read v)).map List.cons).ap (each read (i + 1) vs)

end Checked

/-- A way to read data of one type out of a value. -/
abbrev Reader (α : Type) := Value → Checked α

namespace Reader

variable {α : Type}

def any : Reader Value := Checked.ok

def text : Reader String
  | .text s => Checked.ok s
  | _ => Checked.flaw .notText

def word (ofWord? : String → Option α) : Reader α
  | .text s =>
    match ofWord? s with
    | some a => Checked.ok a
    | none => Checked.flaw .notWord
  | _ => Checked.flaw .notWord

def optional (read : Reader α) : Reader (Option α)
  | .null => Checked.ok none
  | v => (read v).map some

/-- Nothing is read as a default. -/
def orElse (default : α) (read : Reader α) : Reader α
  | .null => Checked.ok default
  | v => read v

def list (read : Reader α) : Reader (List α)
  | .list xs | .tuple xs | .set xs => Checked.each read 0 xs
  | _ => Checked.flaw .notList

def keyStep : Value → PathStep
  | .text s => .name s
  | .bool b => .index (if b then 1 else 0)
  | .int n =>
    if Value.fitsWord n then .index n else .name (toString n)
  | v =>
    match v.written with
    | .ok s => .name s
    | .error _ => .name ""

def entries (read : Reader α) : Table → Checked (List (String × α))
  | [] => Checked.ok []
  | (k, v) :: rest =>
    let step := keyStep k
    let key := Checked.under step (Checked.under (.name "[key]") (text k))
    let value := Checked.under step (read v)
    (((key.map Prod.mk).ap value).map List.cons).ap (entries read rest)

def dict (read : Reader α) : Reader (List (String × α))
  | .dict es => entries read es
  | _ => Checked.flaw .notDict

def model (read : Table → Checked α) : Reader α
  | .dict es => read es
  | _ => Checked.flaw .notModel

def field (fs : Table) (name : String) (read : Reader α) : Checked α :=
  match fs.find? (.text name) with
  | some v => Checked.under (.name name) (read v)
  | none => Checked.under (.name name) (Checked.flaw .missing)

/-- A field that may be left out. -/
def fieldOr (fs : Table) (name : String) (default : α) (read : Reader α) : Checked α :=
  match fs.find? (.text name) with
  | some v => Checked.under (.name name) (read v)
  | none => Checked.ok default

/-- A field under either of two names; the first wins if both are there. -/
def aliasedOr (fs : Table) (name other : String) (default : α) (read : Reader α) : Checked α :=
  match fs.find? (.text name) with
  | some v => Checked.under (.name name) (read v)
  | none => fieldOr fs other default read

def only (names : List String) : Table → Checked Unit
  | [] => Checked.ok ()
  | (k, _) :: rest =>
    let first : Checked Unit := match k with
      | .text s => if names.contains s then Checked.ok () else Checked.flaw .extraField
      | _ => Checked.flaw .badKey
    ((Checked.under (keyStep k) first).map fun _ => id).ap (only names rest)

end Reader
end Parley
