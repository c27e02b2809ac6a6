import Parley.Interpolate
import Parley.Expression.Mutate

/-
Walking a document.

A visit looks at one node: it follows a condition or a jump to another key, or
builds a line.  A walk makes the change of every change node it passes and goes
on from there, until it reaches a line the host can show or the end.
-/

namespace Parley

/-- Attaches the responses that follow a line.  A single one decides where the
line leads. -/
def Line.attach (l : Line) : Option (List Response) → Line
  | none => l
  | some [r] => { l with responses := [r], nextId := r.nextId }
  | some rs => { l with responses := rs }

namespace Play

def logMissing (key : String) : Play Unit := log .warning ("Response line not found: " ++ key)

/-- Builds the responses under the given keys whose conditions hold.  A key
without a node is logged and passed over. -/
def responses (ask : Ask) (r : Resource) (keys : List String) : Play (List Response) :=
  Act.gather
    (fun key =>
      match r.node? key with
      | none => do
        logMissing key
        pure none
      | some n => do
        if ← check ask n.condition then pure (some (Response.ofNode n)) else pure none)
    keys

/-- The responses that stand under a key, absent unless a response node does. -/
def responsesUnder (ask : Ask) (r : Resource) (key : String) : Play (Option (List Response)) :=
  match r.node? key with
  | none => pure none
  | some n => do
    if n.kind == .response then return some (← responses ask r n.responses) else pure none

def lineText (ask : Ask) (n : Node) (l : Line) : Play Line :=
  if n.kind == .dialogue && !n.replacements.isEmpty then do
    let text ← interpolate ask n.replacements n.text.toList
    pure { l with dialogue := some (String.ofList text) }
  else pure l

/-- Builds the line of a node that is neither a condition nor a jump. -/
def build (ask : Ask) (r : Resource) (n : Node) : Play Line :=
  if n.kind == .response then do
    let rs ← responses ask r n.responses
    pure { Line.ofNode n with responses := rs }
  else do
    let l ← lineText ask n (Line.ofNode n)
    let following ← responsesUnder ask r l.nextId
    pure (Line.attach l following)

/-- Looks at the node a key leads to: either the key to go on with, or the line
there, absent at the end of the dialogue. -/
def visit (ask : Ask) (r : Resource) (key : String) : Play (String ⊕ Option Line) :=
  match r.node? (r.resolveKey key) with
  | none => pure (.inr none)
  | some n =>
    match n.kind with
    | .condition => do
      if ← check ask n.condition then pure (.inl n.nextId) else pure (.inl n.nextConditionalId)
    | .goto => pure (.inl n.nextId)
    | _ => do
      let l ← build ask r n
      pure (.inr (some l))

/-- The line under a key, after following conditions and jumps. -/
def lineAt (ask : Ask) (r : Resource) (fuel : Nat) (key : String) : Play (Option Line) :=
  Act.iterate (visit ask r) fuel key

/-- What happens on a bus, as the session's trace tells it. -/
def heard (running : Bool) : Happening Hearer → List Entry
  | .opened g => [.announced g]
  | .called (.listener id) _ _ => [.listener id running]
  | .called (.handler id) g _ => [.handler id g]
  | .failed g => [.log .error ("Error in event handler for DialogueEvent." ++ g.label)]
  | .subscribed _ _ | .unsubscribed _ _ | .closed _ => []

/-- Publishes a signal to everyone who listens.  Listeners only ever add and
remove registrations, so one level of publishing is enough. -/
def announce (g : Signal) : Play Unit := fun s =>
  match (Bus.publish (fun _ => s.react) 1 g [] { bus := s.bus }).finish with
  | some (_, x) =>
    .done () { s with bus := x.bus, trace := s.trace ++ x.history.flatMap (heard s.running) }
  | none => .exhausted

/-- Moves the running signal, and announces it if it changed. -/
def setRunning (value : Bool) : Play Unit := fun s =>
  if s.running == value then .done () s
  else announce (if value then .started else .finished) { s with running := value }

/-- Ends the dialogue, after starting it if it was not running. -/
def finishDialogue : Play (Option Line) := do
  setRunning true
  setRunning false
  pure none

/-- Goes on with a key after a change, or ends the dialogue without one. -/
def goOn (key : String) : Play (String ⊕ Option Line) :=
  if key == "" then do return .inr (← finishDialogue) else return .inl key

/-- What a walk does with the line a visit gave: the key to go on with after a
change, or the walk's result. -/
def proceed (ask : Ask) : Option Line → Play (String ⊕ Option Line)
  | none => do return .inr (← finishDialogue)
  | some l =>
    if !l.isValid then do return .inr (← finishDialogue)
    else if l.kind != .mutation then do
      setRunning true
      return .inr (some l)
    else do
      mutate ask l.mutation
      goOn l.nextId

theorem goOn_empty : goOn "" = do return .inr (← finishDialogue) := rfl

theorem goOn_of_ne {key : String} (h : key ≠ "") : goOn key = pure (.inl key) := by
  rw [goOn, if_neg (by simpa using h)]

theorem proceed_of_invalid {l : Line} (h : l.isValid = false) (ask : Ask) :
    proceed ask (some l) = do return .inr (← finishDialogue) := by
  simp [proceed, h]

theorem proceed_of_shown {l : Line} (h : l.isValid = true) (hk : l.kind ≠ .mutation)
    (ask : Ask) : proceed ask (some l) = (do setRunning true; return .inr (some l)) := by
  simp [proceed, h, hk]

theorem proceed_of_change {l : Line} (h : l.isValid = true) (hk : l.kind = .mutation)
    (ask : Ask) : proceed ask (some l) = (do mutate ask l.mutation; goOn l.nextId) := by
  simp [proceed, h, hk]

def step (ask : Ask) (r : Resource) (key : String) : Play (String ⊕ Option Line) := do
  match ← visit ask r key with
  | .inl key => pure (.inl key)
  | .inr l => proceed ask l

/-- Walks from a key to the next line the host can show, absent at the end of the
dialogue. -/
def walk (ask : Ask) (r : Resource) (fuel : Nat) (key : String) : Play (Option Line) :=
  Act.iterate (step ask r) fuel key

end Play
end Parley
