import Parley.Act
import Parley.Bus
import Parley.Bindings
import Parley.Document.Basic

/-
A dialogue session: the bound states, whether dialogue is running, whether a walk
is under way, who listens, and what has been seen from outside.

Those who listen to a session may add and remove listeners, and may fail, but they
publish no signals of their own: announcements do not nest.

Arithmetic makes not-a-numbers without a mark.  One gets its mark when it is kept,
so that whatever holds it from then on holds the same one.
-/

namespace Parley

/-- What hears signals: a listener known by its name, or a handler subscribed to
the bus itself.  The two are never equal. -/
inductive Hearer where
  | listener (id : String)
  | handler (id : String)
deriving DecidableEq, Repr

structure Session where
  bindings : Bindings := {}
  /-- The document that is used when none is passed. -/
  default : Option Resource := none
  running : Bool := false
  /-- Whether a walk is under way. -/
  pending : Bool := false
  bus : Bus Hearer := {}
  /-- What listeners do when they run. -/
  reactions : List (String × Reaction Hearer) := []
  trace : List Entry := []
  /-- How many marks the session has given. -/
  marks : Nat := 0

/-- A run within a session. -/
abbrev Play (α : Type) := Act Session Fault α

/-- How a host's request for a line is answered. -/
abbrev Ask := Option Resource → String → Play (Option Shown)

namespace Session

def record (e : Entry) (s : Session) : Session := { s with trace := s.trace ++ [e] }

/-- What those who hear a signal do.  Handlers leave their trace and do nothing else. -/
def react (s : Session) : Hearer → Reaction Hearer
  | .listener id => (s.reactions.lookup id).getD {}
  | .handler _ => {}

def nextMark (s : Session) : Mark × Session := (.made s.marks, { s with marks := s.marks + 1 })

end Session

namespace Play

def note (e : Entry) : Play Unit := Act.modify (Session.record e)

def log (level : Level) (message : String) : Play Unit := note (.log level message)

/-- Reads the bound states, which may fail but changes nothing. -/
def reading {α : Type} (f : Bindings → Except Fault α) : Play α := Act.read fun s => f s.bindings

theorem reading_of_ok {α : Type} {f : Bindings → Except Fault α} {s : Session} {a : α}
    (h : f s.bindings = .ok a) : reading f s = .done a s :=
  Act.read_of_ok h

theorem reading_of_error {α : Type} {f : Bindings → Except Fault α} {s : Session} {e : Fault}
    (h : f s.bindings = .error e) : reading f s = .failed e s :=
  Act.read_of_error h

theorem reading_eq_done {α : Type} {f : Bindings → Except Fault α} {s t : Session} {a : α} :
    reading f s = .done a t ↔ f s.bindings = .ok a ∧ t = s := by
  cases h : f s.bindings with
  | ok a' =>
    rw [reading_of_ok h]
    simp [eq_comm]
  | error e =>
    rw [reading_of_error h]
    simp

theorem reading_eq_failed {α : Type} {f : Bindings → Except Fault α} {s t : Session}
    {e : Fault} : reading f s = .failed e t ↔ f s.bindings = .error e ∧ t = s := by
  cases h : f s.bindings with
  | ok a =>
    rw [reading_of_ok h]
    simp
  | error e' =>
    rw [reading_of_error h]
    simp [eq_comm]

theorem reading_congr {α : Type} {f g : Bindings → Except Fault α} {s : Session}
    (h : f s.bindings = g s.bindings) : reading f s = reading g s := by
  show Act.read _ s = Act.read _ s
  simp only [Act.read, h]

/-- Looking twice is looking once. -/
theorem reading_bind {α β : Type} (f : Bindings → Except Fault α)
    (g : α → Bindings → Except Fault β) :
    (reading f >>= fun a => reading (g a)) = reading fun b => f b >>= fun a => g a b := by
  funext s
  cases h : f s.bindings with
  | ok a =>
    rw [Act.bind_of_done (reading_of_ok h)]
    refine reading_congr ?_
    rw [h]
    rfl
  | error e =>
    rw [Act.bind_of_failed (reading_of_error h)]
    refine (reading_of_error ?_).symm
    rw [h]
    rfl

/-- Changes the bound states, or fails and changes nothing. -/
def writing (f : Bindings → Except Fault Bindings) : Play Unit := fun s =>
  match f s.bindings with
  | .ok b => .done () { s with bindings := b }
  | .error e => .failed e s

theorem writing_of_ok {f : Bindings → Except Fault Bindings} {s : Session} {b : Bindings}
    (h : f s.bindings = .ok b) : writing f s = .done () { s with bindings := b } := by
  rw [writing, h]

theorem writing_of_error {f : Bindings → Except Fault Bindings} {s : Session} {e : Fault}
    (h : f s.bindings = .error e) : writing f s = .failed e s := by
  rw [writing, h]

theorem writing_cases (f : Bindings → Except Fault Bindings) (s : Session) :
    (∃ b, f s.bindings = .ok b ∧ writing f s = .done () { s with bindings := b }) ∨
      ∃ e, f s.bindings = .error e ∧ writing f s = .failed e s := by
  cases h : f s.bindings with
  | ok b => exact .inl ⟨b, rfl, writing_of_ok h⟩
  | error e => exact .inr ⟨e, rfl, writing_of_error h⟩

/-- Gives a not-a-number that has no mark its own. -/
def keep : Value → Play Value
  | .float x => fun s =>
    if x.isNaN then
      let (m, s) := s.nextMark
      .done (.nan m) s
    else .done (.float x) s
  | v => pure v

theorem keep_float (x : Float) (s : Session) :
    keep (.float x) s =
      if x.isNaN then .done (.nan (.made s.marks)) { s with marks := s.marks + 1 }
      else .done (.float x) s := rfl

/-- Keeping a value gives one, and at most counts a mark. -/
theorem exists_keep (v : Value) (s : Session) :
    ∃ v' n, keep v s = .done v' { s with marks := n } := by
  cases v with
  | float x =>
    rw [keep_float]
    split
    · exact ⟨_, _, rfl⟩
    · exact ⟨_, s.marks, rfl⟩
  | _ => exact ⟨_, s.marks, rfl⟩

end Play
end Parley
