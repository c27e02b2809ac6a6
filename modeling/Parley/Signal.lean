/-
The two moments of a dialogue that listeners can hear of.
-/

namespace Parley

inductive Signal where
  | started
  | finished
deriving DecidableEq, Repr

namespace Signal

def all : List Signal := [.started, .finished]

def word : Signal → String
  | .started => "started"
  | .finished => "finished"

def label : Signal → String
  | .started => "STARTED"
  | .finished => "FINISHED"

def ofWord? (s : String) : Option Signal := all.find? (·.word == s)

theorem ofWord?_word (g : Signal) : ofWord? g.word = some g := by
  cases g <;> decide

end Signal
end Parley
