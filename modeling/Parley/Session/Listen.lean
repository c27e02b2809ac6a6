import Parley.Session.Basic

/-
Who listens to a session.
-/

namespace Parley
namespace Session

/-- Fixes what a listener does when it runs, unless that is fixed already. -/
def introduce (id : String) (r : Reaction Hearer) (s : Session) : Session :=
  if (s.reactions.lookup id).isSome then s else { s with reactions := s.reactions ++ [(id, r)] }

theorem exists_introduce (id : String) (r : Reaction Hearer) (s : Session) :
    ∃ reactions, introduce id r s = { s with reactions } := by
  unfold introduce
  split
  · exact ⟨s.reactions, rfl⟩
  · exact ⟨_, rfl⟩

end Session

namespace Play

/-- Changes the registrations for the signal a word names. -/
def onBus (word : String) (f : Signal → Bus Hearer → Bus Hearer) : Play Unit := do
  let g ← Act.ofExcept (Bus.signal? word)
  Act.modify fun s => { s with bus := f g s.bus }

def addListener (word id : String) (r : Reaction Hearer) : Play Unit := do
  Act.modify (Session.introduce id r)
  onBus word fun g => Bus.subscribe g (.listener id)

def removeListener (word id : String) : Play Unit := do
  Act.modify (Session.introduce id {})
  onBus word fun g => Bus.unsubscribe g (.listener id)

def subscribe (word id : String) : Play Unit := onBus word fun g => Bus.subscribe g (.handler id)

end Play
end Parley
