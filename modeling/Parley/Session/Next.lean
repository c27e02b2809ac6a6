import Parley.Walk

/-
Asking a session for the next line.

At most one walk is under way.  A request that comes in the meantime, be it from
a host method that the walk itself called, is refused and changes nothing; the
guard is released however the walk ends.
-/

namespace Parley
namespace Play

/-- The document to walk, refused without one or while a walk is under way. -/
def admitted (r : Option Resource) : Play Resource :=
  Act.read fun s =>
    match r <|> s.default with
    | none => .error .noResource
    | some r => if s.pending then .error .inProgress else .ok r

/-- Runs a walk while the guard is held. -/
def guarded {α : Type} (x : Play α) : Play α := do
  Act.modify fun s => { s with pending := true }
  Act.ensure (fun s => { s with pending := false }) x

/-- Looks for the next line from a key, in the given document or else the default
one, while `ask` answers the requests of host methods. -/
def seek (ask : Ask) (fuel : Nat) (r : Option Resource) (key : String) : Play (Option Line) := do
  let r ← admitted r
  guarded (walk ask r fuel key)

/-- The next line from a key.  Requests by host methods are answered in the same
way, up to `nesting` levels deep. -/
def next (fuel : Nat) : Nat → Option Resource → String → Play (Option Line)
  | 0, r, _ => do
    let _ ← admitted r
    fun _ => .exhausted
  | nesting + 1, r, key =>
    seek (fun r key => do return (← next fuel nesting r key).map Line.toShown) fuel r key

/-- Answers the requests of host methods. -/
def answer (fuel nesting : Nat) : Ask := fun r key => do
  return (← next fuel nesting r key).map Line.toShown

theorem next_succ (fuel nesting : Nat) (r : Option Resource) (key : String) :
    next fuel (nesting + 1) r key = seek (answer fuel nesting) fuel r key := rfl

end Play
end Parley
