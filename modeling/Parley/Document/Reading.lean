import Parley.Document.Basic
import Parley.Document.Checked

/-
Reading documents and lines out of values, and setting fields of lines.

Fields a document record does not know are ignored; a line or a response refuses
them.  Nothing stands for the empty text and the empty list in a node.
-/

namespace Parley

open Reader

/-! ## Documents -/

def Expression.read (fs : Table) : Checked Expression :=
  (Checked.ok Expression.mk)
    |>.ap (fieldOr fs "lhs_type" .scalar (word SideKind.ofWord?))
    |>.ap (fieldOr fs "lhs_function" none (optional Reader.text))
    |>.ap (fieldOr fs "lhs_args" [] (list any))
    |>.ap (fieldOr fs "lhs" .null any)
    |>.ap (fieldOr fs "operator" none (optional Reader.text))
    |>.ap (fieldOr fs "rhs_type" none (optional (word SideKind.ofWord?)))
    |>.ap (fieldOr fs "rhs_function" none (optional Reader.text))
    |>.ap (fieldOr fs "rhs_args" [] (list any))
    |>.ap (fieldOr fs "rhs" .null any)

def Replacement.read (fs : Table) : Checked Replacement :=
  (Checked.ok Replacement.mk)
    |>.ap (fieldOr fs "type" .scalar (word SideKind.ofWord?))
    |>.ap (fieldOr fs "value" .null any)
    |>.ap (fieldOr fs "value_in_text" "" Reader.text)
    |>.ap (fieldOr fs "function" none (optional Reader.text))
    |>.ap (fieldOr fs "args" [] (list any))

def Node.read (fs : Table) : Checked Node :=
  (Checked.ok Node.mk)
    |>.ap (field fs "type" (word NodeKind.ofWord?))
    |>.ap (fieldOr fs "next_id" "" (orElse "" Reader.text))
    |>.ap (fieldOr fs "next_conditional_id" "" (orElse "" Reader.text))
    |>.ap (fieldOr fs "next_id_after" "" (orElse "" Reader.text))
    |>.ap (fieldOr fs "character" "" (orElse "" Reader.text))
    |>.ap (fieldOr fs "text" "" (orElse "" Reader.text))
    |>.ap (fieldOr fs "condition" none (optional (model Expression.read)))
    |>.ap (fieldOr fs "mutation" none (optional (model Expression.read)))
    |>.ap (fieldOr fs "replacements" [] (orElse [] (list (model Replacement.read))))
    |>.ap (fieldOr fs "responses" [] (orElse [] (list Reader.text)))

def Resource.read (fs : Table) : Checked Resource :=
  (Checked.ok Resource.mk)
    |>.ap (fieldOr fs "titles" [] (dict Reader.text))
    |>.ap (fieldOr fs "lines" [] (dict (model Node.read)))

def Expression.check : Reader Expression := model Expression.read

def Replacement.check : Reader Replacement := model Replacement.read

def Node.check : Reader Node := model Node.read

def Resource.check : Reader Resource := model Resource.read

/-! ## Lines

The field for the next key has two names, of which the first is the one shown
to the host. -/

def Response.read (fs : Table) : Checked Response :=
  (Checked.ok fun prompt nextId _ => { prompt, nextId })
    |>.ap (fieldOr fs "prompt" "" Reader.text)
    |>.ap (aliasedOr fs "nextId" "next_id" "" Reader.text)
    |>.ap (only ["prompt", if (fs.find? (.text "nextId")).isSome then "nextId" else "next_id"] fs)

def Response.check : Reader Response := model Response.read

def Line.read (fs : Table) : Checked Line :=
  (Checked.ok fun kind nextId character dialogue mutation responses _ =>
      { kind, nextId, character, dialogue, mutation, responses })
    |>.ap (fieldOr fs "type" .dialogue (word NodeKind.ofWord?))
    |>.ap (aliasedOr fs "nextId" "next_id" "" Reader.text)
    |>.ap (fieldOr fs "character" none (optional Reader.text))
    |>.ap (fieldOr fs "dialogue" none (optional Reader.text))
    |>.ap (fieldOr fs "mutation" none (optional Expression.check))
    |>.ap (fieldOr fs "responses" [] (list Response.check))
    |>.ap (only ["type", "character", "dialogue", "mutation", "responses",
        if (fs.find? (.text "nextId")).isSome then "nextId" else "next_id"] fs)

def Line.check : Reader Line := model Line.read

/-- Sets one field of a response.  A private name, which starts with an
underscore, is accepted and changes no field. -/
def Response.assign (r : Response) (name : String) (v : Value) : Checked Response :=
  Checked.under (.name name) <|
    match name with
    | "prompt" => (Reader.text v).map fun s => { r with prompt := s }
    | "next_id" => (Reader.text v).map fun s => { r with nextId := s }
    | _ => if name.startsWith "_" then Checked.ok r else Checked.flaw .noSuchField

def Line.assign (l : Line) (name : String) (v : Value) : Checked Line :=
  Checked.under (.name name) <|
    match name with
    | "type" => (word NodeKind.ofWord? v).map fun k => { l with kind := k }
    | "next_id" => (Reader.text v).map fun s => { l with nextId := s }
    | "character" => (optional Reader.text v).map fun s => { l with character := s }
    | "dialogue" => (optional Reader.text v).map fun s => { l with dialogue := s }
    | "mutation" => (optional Expression.check v).map fun m => { l with mutation := m }
    | "responses" => (list Response.check v).map fun rs => { l with responses := rs }
    | _ => if name.startsWith "_" then Checked.ok l else Checked.flaw .noSuchField

/-- Fields of a line that are computed and cannot be set. -/
def Line.computed : List String := ["has_responses"]

def Line.put (l : Line) (name : String) (v : Value) : Except Fault Line :=
  if Line.computed.contains name then .error (.readOnly "DialogueLine" name)
  else (l.assign name v).mapError .invalid

def Response.put (r : Response) (name : String) (v : Value) : Except Fault Response :=
  (r.assign name v).mapError .invalid

/-- Documents and their nodes are not to be changed: setting a field is refused,
unless its name is private. -/
def refuse (name : String) : Checked Unit :=
  if name.startsWith "_" then Checked.ok ()
  else Checked.under (.name name) (Checked.flaw .frozen)

namespace Resource

def put (name : String) : Except Fault Unit := (refuse name).mapError .invalid

def putAt (r : Resource) (key : Option String) (name : String) : Except Fault Unit :=
  if (key.bind fun k => r.lines.lookup k).isSome then put name
  else .error (.missingKey (Shown.optionText key))

end Resource
end Parley
