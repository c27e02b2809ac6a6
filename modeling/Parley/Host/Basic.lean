import Parley.Host.Routine
import Parley.Value.Text

/-
Host states, and what scripts can see of them.

A mapping shows its entries as properties and its methods apart from them.  An
object shows its public attributes, those whose name is not empty and does not
start with an underscore: getters come first, then its own values, then its
methods.  A method is no property; a callable value is both.

A getter of an object gives one and the same value each time, or fails each time.
States that a host has written out itself, with answers of their own to what they
define and how they are read, are left out.
-/

namespace Parley

inductive Style where
  | mapping
  /-- An object of a class with the given name, and with getters that give a
  value or fail. -/
  | object (label : String) (getters : List (String × Except Fault Value))

structure Host where
  style : Style := .mapping
  values : Table := []
  methods : List (String × Method) := []
  callables : List (String × Code) := []

namespace Host

def isPublic (name : String) : Bool := name != "" && !name.startsWith "_"

/-- A name as it stands in a message about a missing key. -/
def missingKey (name : Value) : Fault :=
  match name.written with
  | .ok s => .missingKey s
  | .error f => f

/-- An attribute of an object; `owner` is its place among the states. -/
def look (owner : Nat) (label : String) (getters : List (String × Except Fault Value))
    (h : Host) (name : String) : Except Fault Value :=
  match getters.lookup name with
  | some g => g
  | none =>
    match h.values.find? (.text name) with
    | some v => .ok v
    | none =>
      match h.methods.lookup name with
      | some (.routine _) => .ok (.callable { owner, name, isRoutine := true })
      | some (.inert v) => .ok v
      | none => .error (.missingAttribute label name)

def isRoutine : Value → Bool
  | .callable c => c.isRoutine
  | _ => false

def isCallable : Value → Bool
  | .callable _ => true
  | _ => false

/-- What a probe of an attribute says; an absent attribute is no failure. -/
def probe (test : Value → Bool) : Except Fault Value → Except Fault Bool
  | .ok v => .ok (test v)
  | .error f => if f.isMissingAttribute then .ok false else .error f

/-- Tests an attribute of an object that scripts may name.  A name that counts as
false names nothing, any other that is no text cannot be asked for. -/
def probePublic (test : Value → Bool) (look : String → Except Fault Value)
    (name : Value) : Except Fault Bool :=
  match name with
  | .text s => if isPublic s then probe test (look s) else .ok false
  | v => if v.truthy then .error (.missingAttribute v.kind.label "startswith") else .ok false

def hasProperty (owner : Nat) (h : Host) (name : Value) : Except Fault Bool :=
  match h.style with
  | .mapping => h.values.contains name
  | .object label getters =>
    probePublic (fun v => !isRoutine v) (h.look owner label getters) name

def property (owner : Nat) (h : Host) (name : Value) : Except Fault Value :=
  match h.style with
  | .mapping =>
    match name.checkKey with
    | .error f => .error f
    | .ok _ =>
      match h.values.find? name with
      | some v => .ok v
      | none => .error (missingKey name)
  | .object label getters =>
    match name with
    | .text s => h.look owner label getters s
    | v => .error (.attributeNotText v.kind)

/-- Writes a value plainly: an entry of a mapping, or an attribute of an object,
where a getter stands in the way. -/
def write (h : Host) (name value : Value) : Except Fault Host :=
  match h.style with
  | .mapping => name.checkKey.map fun _ => { h with values := h.values.insert name value }
  | .object label getters =>
    match name with
    | .text s =>
      if (getters.lookup s).isSome then .error (.readOnly label s)
      else .ok { h with values := h.values.insert name value }
    | v => .error (.attributeNotText v.kind)

/-- The setter of an object: its `set` attribute if that is a method. -/
def setter? (owner : Nat) (h : Host) : Except Fault (Option Callable) :=
  match h.style with
  | .mapping => .ok none
  | .object label getters =>
    match h.look owner label getters "set" with
    | .ok (.callable c) => .ok (if c.isRoutine then some c else none)
    | .ok _ => .ok none
    | .error f => if f.isMissingAttribute then .ok none else .error f

def hasMethod (owner : Nat) (h : Host) (name : Value) : Except Fault Bool :=
  match h.style with
  | .mapping => name.checkKey.map fun _ =>
    match name with
    | .text s =>
      match h.methods.lookup s with
      | some (.routine _) => true
      | _ => false
    | _ => false
  | .object label getters => probePublic isCallable (h.look owner label getters) name

def code? (h : Host) (c : Callable) : Option Code :=
  if c.isRoutine then
    match h.methods.lookup c.name with
    | some (.routine code) => some code
    | _ => none
  else h.callables.lookup c.name

theorem mem_of_code? {h : Host} {c : Callable} {code : Code} (hc : h.code? c = some code) :
    (c.name, .routine code) ∈ h.methods ∨ (c.name, code) ∈ h.callables := by
  unfold code? at hc
  split at hc
  · split at hc
    · next body hbody =>
      cases hc
      exact .inl (mem_of_lookup hbody)
    · cases hc
  · exact .inr (mem_of_lookup hc)

/-- What a call of a name refers to: code of a mapping, or a callable value of an
object. -/
def callee (owner : Nat) (h : Host) (name : Value) : Except Fault Callable :=
  match h.style with
  | .mapping =>
    match name.checkKey with
    | .error f => .error f
    | .ok _ =>
      match name with
      | .text s =>
        match h.methods.lookup s with
        | some (.routine _) => .ok { owner, name := s, isRoutine := true }
        | some (.inert v) => .error (.notCallable v.kind)
        | none => .error (missingKey name)
      | _ => .error (missingKey name)
  | .object _ _ =>
    match h.property owner name with
    | .ok (.callable c) => .ok c
    | .ok v => .error (.notCallable v.kind)
    | .error f => .error f

end Host
end Parley
