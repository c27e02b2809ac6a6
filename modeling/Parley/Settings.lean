/-
How a session is set up.  What is left out takes its default.
-/

namespace Parley

structure Settings (κ : Type) where
  /-- Whether an unknown name is a fault. -/
  strict : Bool := true
  states : List κ := []
  /-- The name of the document to use when none is passed. -/
  default : Option String := none

namespace Settings

variable {κ : Type}

def make (strict : Option Bool) (states : Option (List κ)) (default : Option String) :
    Settings κ :=
  { strict := strict.getD true, states := states.getD [], default }

end Settings
end Parley
