import Parley.Act
import Parley.Value.Equal
import Parley.Signal

/-
Delivery of signals to handlers.

A bus is the ordered list of registrations.  Publishing calls the handlers that
were registered when it began, in that order and once per registration; what
they do to the bus in the meantime concerns later publishing only, and a handler
that fails does not keep the others from running.
-/

namespace Parley

structure Registration (η : Type) where
  signal : Signal
  handler : η
deriving DecidableEq, Repr

structure Bus (η : Type) where
  registrations : List (Registration η) := []
deriving Repr

namespace Bus

variable {η : Type}

/-- The handlers of a signal, oldest registration first. -/
def handlers (b : Bus η) (g : Signal) : List η :=
  (b.registrations.filter (·.signal == g)).map (·.handler)

def subscribe (g : Signal) (h : η) (b : Bus η) : Bus η :=
  { registrations := b.registrations ++ [{ signal := g, handler := h }] }

def unsubscribe [DecidableEq η] (g : Signal) (h : η) (b : Bus η) : Bus η :=
  { registrations := b.registrations.filter fun r => !(r.signal == g && r.handler == h) }

theorem handlers_subscribe (b : Bus η) (g k : Signal) (h : η) :
    (b.subscribe g h).handlers k = b.handlers k ++ if g = k then [h] else [] := by
  by_cases hk : g = k
  · subst hk
    simp [handlers, subscribe]
  · have hne : (g == k) = false := beq_false_of_ne hk
    simp [handlers, subscribe, hk, hne]

theorem handlers_unsubscribe [DecidableEq η] (b : Bus η) (g k : Signal) (h : η) :
    (b.unsubscribe g h).handlers k =
      if g = k then (b.handlers k).filter (· != h) else b.handlers k := by
  by_cases hk : g = k
  · subst hk
    simp only [handlers, unsubscribe, List.filter_filter, List.filter_map, if_true]
    congr 1
    refine List.filter_congr fun r _ => ?_
    by_cases hr : r.signal = g
    · simp [hr, bne]
    · simp [beq_false_of_ne hr]
  · rw [if_neg hk]
    simp only [handlers, unsubscribe, List.filter_filter]
    congr 1
    refine List.filter_congr fun r _ => ?_
    by_cases hr : r.signal = k
    · have hne : r.signal ≠ g := fun e => hk (e.symm.trans hr)
      simp [hr, Ne.symm hk]
    · simp [hr]

end Bus

/-- One use of the bus, by its owner or by a handler.  Signals are named by their
word, which may be unknown. -/
inductive Deed (η : Type) where
  | subscribe (word : String) (handler : η)
  | unsubscribe (word : String) (handler : η)
  | publish (word : String) (data : Table)

/-- What a handler does when it is called: uses of the bus in turn, then a
fault of its own if it has one.  A use that fails ends the rest. -/
structure Reaction (η : Type) where
  deeds : List (Deed η) := []
  fault : Option Fault := none

/-- What has happened on a bus, in order of occurrence. -/
inductive Happening (η : Type) where
  | subscribed (g : Signal) (h : η)
  | unsubscribed (g : Signal) (h : η)
  | opened (g : Signal)
  | called (h : η) (g : Signal) (data : Table)
  | failed (g : Signal)
  | closed (g : Signal)

/-- What each handler does when it is called.  Handlers may keep a memory of their own,
so this depends on all that has happened before. -/
abbrev Conduct (η : Type) := List (Happening η) → η → Reaction η

structure Exchange (η : Type) where
  bus : Bus η := {}
  history : List (Happening η) := []

namespace Exchange

variable {η : Type}

def record (e : Happening η) (x : Exchange η) : Exchange η :=
  { x with history := x.history ++ [e] }

def onBus (f : Bus η → Bus η) (x : Exchange η) : Exchange η := { x with bus := f x.bus }

end Exchange

namespace Bus

variable {η : Type}

abbrev Use (η α : Type) := Act (Exchange η) Fault α

def signal? (word : String) : Except Fault Signal :=
  match Signal.ofWord? word with
  | some g => .ok g
  | none => .error (.unknownEvent word)

/-- The names that data may not have, since they name what is published. -/
def reserved : List String := ["self", "event_type"]

def checkData (data : Table) : Except Fault Unit :=
  let names := data.filterMap fun | (.text s, _) => some s | _ => none
  if names.length < data.length then .error (.wrongArguments "keywords must be strings")
  else match names.find? reserved.contains with
    | some name => .error <| .wrongArguments <|
      "EventBus.publish() got multiple values for argument '" ++ name ++ "'"
    | none => .ok ()

variable [DecidableEq η]

/-- Performs one use; publishing goes through `nested`. -/
def perform (nested : Signal → Table → Use η Unit) : Deed η → Use η Unit
  | .subscribe word h => do
    let g ← Act.ofExcept (signal? word)
    Act.modify fun x => (x.onBus (Bus.subscribe g h)).record (.subscribed g h)
  | .unsubscribe word h => do
    let g ← Act.ofExcept (signal? word)
    Act.modify fun x => (x.onBus (Bus.unsubscribe g h)).record (.unsubscribed g h)
  | .publish word data => do
    let g ← Act.ofExcept (signal? word)
    Act.ofExcept (checkData data)
    nested g data

def performAll (nested : Signal → Table → Use η Unit) : List (Deed η) → Use η Unit
  | [] => pure ()
  | d :: ds => do
    perform nested d
    performAll nested ds

def call (nested : Signal → Table → Use η Unit) (conduct : Conduct η) (g : Signal)
    (data : Table) (h : η) : Use η Unit := do
  Act.modify (·.record (.called h g data))
  let r ← Act.read fun x => .ok (conduct x.history h)
  performAll nested r.deeds
  match r.fault with
  | some f => Act.fail f
  | none => pure ()

/-- Calls handlers in turn; a failure is recorded and the next one runs. -/
def callAll (nested : Signal → Table → Use η Unit) (conduct : Conduct η) (g : Signal)
    (data : Table) : List η → Use η Unit
  | [] => pure ()
  | h :: hs => do
    match ← Act.attempt (call nested conduct g data h) with
    | .ok _ => pure ()
    | .error _ => Act.modify (·.record (.failed g))
    callAll nested conduct g data hs

/-- Publishes a signal.  Handlers may publish in turn, up to `depth` levels deep. -/
def publish (conduct : Conduct η) : Nat → Signal → Table → Use η Unit
  | 0, _, _ => fun _ => .exhausted
  | depth + 1, g, data => do
    let hs ← Act.read fun x => .ok (x.bus.handlers g)
    Act.modify (·.record (.opened g))
    callAll (publish conduct depth) conduct g data hs
    Act.modify (·.record (.closed g))

/-- A use of the bus by its owner, with handlers that do the same at every call. -/
def run (react : η → Reaction η) (depth : Nat) : Deed η → Use η Unit :=
  perform (publish (fun _ => react) depth)

end Bus
end Parley
