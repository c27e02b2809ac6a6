/-
What the host can show: a line as it is handed over, with the responses that
follow it.
-/

namespace Parley

/-- What a node of a dialogue document does. -/
inductive NodeKind where
  | condition
  | dialogue
  | mutation
  | response
  | goto
deriving DecidableEq, Repr

namespace NodeKind

def all : List NodeKind := [.condition, .dialogue, .mutation, .response, .goto]

def word : NodeKind → String
  | .condition => "condition"
  | .dialogue => "dialogue"
  | .mutation => "mutation"
  | .response => "response"
  | .goto => "goto"

def ofWord? (s : String) : Option NodeKind := all.find? (·.word == s)

theorem ofWord?_word (k : NodeKind) : ofWord? k.word = some k := by
  cases k <;> decide

end NodeKind

/-- One option the player can choose, and the key to ask for next if they do. -/
structure Response where
  prompt : String := ""
  nextId : String := ""
deriving DecidableEq, Repr

structure Shown where
  kind : NodeKind := .dialogue
  nextId : String := ""
  character : Option String := none
  dialogue : Option String := none
  responses : List Response := []
deriving DecidableEq, Repr

namespace Shown

def hasResponses (l : Shown) : Bool := !l.responses.isEmpty

/-- The key to ask for after this line.  A choice picks a response, counting
round from the first again past the last and back from the last below zero;
without responses, or without a choice, the line's own key is next. -/
def follow (l : Shown) : Option Int → String
  | none => l.nextId
  | some choice =>
    match l.responses[(choice % (l.responses.length : Int)).toNat]? with
    | some r => r.nextId
    | none => l.nextId

theorem follow_none (l : Shown) : l.follow none = l.nextId := rfl

theorem follow_of_not_hasResponses {l : Shown} (h : l.hasResponses = false)
    (choice : Option Int) : l.follow choice = l.nextId := by
  have hl : l.responses = [] := by simpa [hasResponses] using h
  cases choice with
  | none => rfl
  | some c => simp [follow, hl]

end Shown
end Parley
