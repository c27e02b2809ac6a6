import Parley.Command
import Parley.Session.Next
import Parley.Session.Listen
import Parley.Document.Reading
import Parley.Pool
import Parley.Settings

/-
A playthrough: a session with its documents, and the commands a host gives it.

Commands that take a document record or a line read it first, and a flawed one is
a fault of the command.
-/

namespace Parley

structure Playthrough where
  session : Session
  documents : List (String × Resource) := []
  /-- The line of the last request that did not fail. -/
  last : Option Line := none

namespace Playthrough

/-- Most nodes a request may visit. -/
def visitLimit : Nat := 1000000

/-- Host requests nest one deep: a request that is admitted holds the guard, so
those made from within it are refused. -/
def nestingLimit : Nat := 1

def ask (visits : Nat) : Ask := Play.answer visits nestingLimit

/-- Reads named documents, up to the first that is flawed. -/
def readDocuments : List (String × Value) → Checked (List (String × Resource))
  | [] => Checked.ok []
  | (name, v) :: rest =>
    match Resource.check v with
    | .error e => .error e
    | .ok r => (readDocuments rest).map ((name, r) :: ·)

def start (settings : Settings Host) (documents : List (String × Value)) :
    Checked Playthrough :=
  (readDocuments documents).map fun documents =>
    { session :=
        { bindings :=
            { hosts := settings.states, active := List.range settings.states.length,
              strict := settings.strict },
          default := settings.default.bind fun n => documents.lookup n },
      documents }

/-- Takes data read from a value, or fails with its flaws. -/
def checked {α : Type} : Checked α → Play α
  | .ok a => pure a
  | .error flaws => Act.fail (.invalid flaws)

/-- The raw arguments a value stands for: whatever it gives one by one, and none if
it counts as false. -/
def tokensOf (v : Value) : Except Fault (List Value) :=
  if !v.truthy then .ok []
  else match v with
    | .list xs | .tuple xs | .set xs => .ok xs
    | .text s => .ok (s.toList.map fun c => .text (String.singleton c))
    | .dict es => .ok (es.map (·.1))
    | v => .error (.notIterable v.kind)

def lineValue : Option Line → Value
  | some l => l.toValue
  | none => .null

def resource (p : Playthrough) (name : Option String) : Option Resource :=
  name.bind fun n => p.documents.lookup n

def request (p : Playthrough) (r : Request) : Play (Option Line) :=
  Play.next visitLimit nestingLimit (p.resource r.document) r.key

/-- Reads all replacements before the first one is made. -/
def readReplacements : List Value → Play (List Replacement)
  | [] => pure []
  | v :: vs => do
    let r ← checked (Replacement.check v)
    let rs ← readReplacements vs
    return r :: rs

def optionally {α : Type} (read : Reader α) (v : Value) : Play (Option α) :=
  checked (Reader.optional read v)

/-- The responses under keys in turn; an absent key leads to no node. -/
def responses (ask : Ask) (r : Resource) : List (Option String) → Play (List Response)
  | [] => pure []
  | some key :: keys => do
    let first ← Play.responses ask r [key]
    let rest ← responses ask r keys
    return first ++ rest
  | none :: keys => do
    let shown ← Act.ofExcept Value.null.plain
    Play.logMissing shown
    responses ask r keys

def inquire (ask : Ask) (i : Nat) (inquiry : Inquiry) (args : List Value) : Play Value :=
  let name := args.headD .null
  let onHost {α : Type} (f : Host → Except Fault α) : Play α :=
    Play.reading fun b =>
      match b.hosts[i]? with
      | some h => f h
      | none => .error (Host.missingKey name)
  match inquiry with
  | .hasProperty => do return .bool (← onHost fun h => h.hasProperty i name)
  | .property => onHost fun h => h.property i name
  | .setProperty => do
    Play.setAt ask i name ((args.drop 1).headD .null)
    return .null
  | .hasMethod => do return .bool (← onHost fun h => h.hasMethod i name)
  | .callMethod => Play.callAt ask i name (args.drop 1)

/-- What an action does, with at most so many visits for each line it looks for. -/
def act (visits : Nat) (p : Playthrough) : Action → Play Value
  | .lineAt r => do
    let doc := (p.resource r.document).getD {}
    return lineValue (← Play.lineAt (ask visits) doc visits r.key)
  | .responses keys document => do
    let doc := (p.resource document).getD {}
    return .list ((← responses (ask visits) doc keys).map Response.toValue)
  | .isValid line => do
    let l ← optionally Line.check line
    return .bool (l.any Line.isValid)
  | .check condition => do
    let e ← optionally Expression.check condition
    return .bool (← Play.check (ask visits) e)
  | .mutate mutation => do
    let e ← optionally Expression.check mutation
    Play.mutate (ask visits) e
    return .null
  | .resolve tokens hint => Play.reading fun b => b.resolve hint tokens
  | .resolveTwice tokens hint => do
    let first ← Play.reading fun b => b.resolve hint tokens
    let second ← Play.reading fun b => b.resolve hint tokens
    return .list [first, second, tokens]
  | .value token hint => Play.reading fun b => b.valueOf hint token
  | .set name value => do
    Play.set (ask visits) name value
    return .null
  | .call name args => do
    let tokens ← Act.ofExcept (tokensOf args)
    Play.function (ask visits) name tokens
  | .arguments args => do
    let tokens ← Act.ofExcept (tokensOf args)
    return .list (← Play.reading fun b => b.valuesOf tokens)
  | .interpolate text replacements => do
    let rs ← readReplacements replacements
    return .text (String.ofList (← Play.interpolate (ask visits) rs text.toList))
  | .addListener word id reaction => do
    Play.addListener word id reaction
    return .null
  | .removeListener word id => do
    Play.removeListener word id
    return .null
  | .subscribe word id => do
    Play.subscribe word id
    return .null
  | .setStrict strict => do
    Act.modify fun s => { s with bindings := { s.bindings with strict } }
    return .bool strict
  | .setStates indices => do
    Act.modify fun s => { s with bindings := { s.bindings with active := indices } }
    let n ← Play.reading fun b => .ok b.hosts.length
    return .list [.int indices.length, .int n]
  | .setDefault document => do
    let r := p.resource document
    Act.modify fun s => { s with default := r }
    return .bool r.isSome
  | .reset => do
    Act.modify fun s => { s with bindings := { s.bindings with shadow := [] } }
    return .null
  | .inquire index inquiry args => inquire (ask visits) index inquiry args

def following (p : Playthrough) (choice : Option Int) (other : String)
    (document : Option String) : Request :=
  match p.last with
  | some l => { key := l.follow choice, document }
  | none => { key := other, document }

/-- Takes note of how a request ended: the line it gave is the last one from then
on, and a fault leaves the last one as it was. -/
def noteResult (p : Playthrough) : Except Fault (Option Line) → Playthrough
  | .ok l => { p with last := l }
  | .error _ => p

def advance (p : Playthrough) (r : Request) : Reply × Playthrough :=
  match (p.request r p.session).finish with
  | some (result, s) => (.single (result.map lineValue), { p with session := s }.noteResult result)
  | none => (.exhausted, p)

/-- Makes two requests, the second in the first pause of the first.  The second
can give a line only after the first has ended, so its result is noted last. -/
def overlap (p : Playthrough) (first second : Request) : Reply × Playthrough :=
  let pool := Pool.start p.session [p.request first, p.request second]
  let pool := ((pool.turns [0, 1]).drain 0).drain 1
  match pool.result? 0, pool.result? 1 with
  | some a, some b =>
    (.both (a.map lineValue) (b.map lineValue),
      ({ p with session := pool.state }.noteResult a).noteResult b)
  | _, _ => (.exhausted, p)

def conclude (p : Playthrough) (a : Action) : Reply × Playthrough :=
  match (p.act visitLimit a p.session).finish with
  | some (r, s) => (.single r, { p with session := s })
  | none => (.exhausted, p)

/-- Carries out a command, on a trace of its own. -/
def perform (p : Playthrough) (c : Command) : Reply × Playthrough :=
  let p := { p with session := { p.session with trace := [] } }
  match c with
  | .next r => p.advance r
  | .follow choice other document => p.advance (p.following choice other document)
  | .overlap first second => p.overlap first second
  | .act a => p.conclude a

end Playthrough
end Parley
