import Parley.Value.Basic

/-
Dialogue documents: titles that name entry points, and nodes under their keys.

The empty key names no node.  A title may stand wherever a key is resolved, and
resolving anything else gives it back.
-/

namespace Parley

inductive SideKind where
  | function
  | scalar
  | error
deriving DecidableEq, Repr

namespace SideKind

def all : List SideKind := [.function, .scalar, .error]

def word : SideKind → String
  | .function => "function"
  | .scalar => "scalar"
  | .error => "error"

def ofWord? (s : String) : Option SideKind := all.find? (·.word == s)

theorem ofWord?_word (k : SideKind) : ofWord? k.word = some k := by
  cases k <;> decide

end SideKind

/-- A two-sided expression: a condition to check or a change to make.  A side is
a call with raw argument tokens, or a scalar, which is a bare token or a list of
tokens. -/
structure Expression where
  lhsKind : SideKind := .scalar
  lhsFunction : Option String := none
  lhsArgs : List Value := []
  lhs : Value := .null
  operator : Option String := none
  rhsKind : Option SideKind := none
  rhsFunction : Option String := none
  rhsArgs : List Value := []
  rhs : Value := .null

structure Replacement where
  kind : SideKind := .scalar
  value : Value := .null
  placeholder : String := ""
  function : Option String := none
  args : List Value := []

structure Node where
  kind : NodeKind
  nextId : String := ""
  nextConditionalId : String := ""
  nextIdAfter : String := ""
  character : String := ""
  text : String := ""
  condition : Option Expression := none
  mutation : Option Expression := none
  replacements : List Replacement := []
  responses : List String := []

structure Resource where
  titles : List (String × String) := []
  lines : List (String × Node) := []

theorem mem_of_lookup {α : Type} {entries : List (String × α)} {key : String} {a : α}
    (h : entries.lookup key = some a) : (key, a) ∈ entries := by
  obtain ⟨before, after, rfl, -⟩ := List.lookup_eq_some_iff.mp h
  exact List.mem_append_right before List.mem_cons_self

theorem lookup_map {α β : Type} (g : α → β) (entries : List (String × α)) (key : String) :
    (entries.map fun e => (e.1, g e.2)).lookup key = (entries.lookup key).map g := by
  induction entries with
  | nil => rfl
  | cons e entries ih =>
    rw [List.map_cons, List.lookup_cons, List.lookup_cons, ih]
    cases key == e.1 <;> rfl

namespace Resource

/-- The key a title stands for; anything else stands for itself. -/
def resolveKey (r : Resource) (key : String) : String := (r.titles.lookup key).getD key

def node? (r : Resource) (key : String) : Option Node :=
  if key == "" then none else r.lines.lookup key

theorem node?_empty (r : Resource) : r.node? "" = none := rfl

theorem mem_lines_of_node {r : Resource} {key : String} {n : Node} (h : r.node? key = some n) :
    (key, n) ∈ r.lines := by
  unfold node? at h
  split at h
  · cases h
  · exact mem_of_lookup h

theorem resolveKey_of_not_title {r : Resource} {key : String}
    (h : r.titles.lookup key = none) : r.resolveKey key = key := by
  simp [resolveKey, h]

end Resource

/-- A line as it is built from a node: what the host can show, and the change to
make before the walk goes on. -/
structure Line extends Shown where
  mutation : Option Expression := none

namespace Line

/-- Builds a line from a node, with only what nodes of its kind use. -/
def ofNode (n : Node) : Line :=
  match n.kind with
  | .dialogue =>
    { kind := n.kind, nextId := n.nextId, character := some n.character, dialogue := some n.text }
  | .mutation => { kind := n.kind, nextId := n.nextId, mutation := n.mutation }
  | _ => { kind := n.kind, nextId := n.nextId }

/-- Whether there is something to show or to run: a dialogue line needs text, a
response set a response, and a change must be there to be made. -/
def isValid (l : Line) : Bool :=
  match l.kind with
  | .dialogue => l.dialogue.getD "" != ""
  | .mutation => l.mutation.isSome
  | .response => !l.responses.isEmpty
  | .condition | .goto => true

end Line

def Response.ofNode (n : Node) : Response := { prompt := n.text, nextId := n.nextId }

end Parley
