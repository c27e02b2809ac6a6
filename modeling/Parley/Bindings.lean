import Parley.Host.Basic
import Parley.Literal

/-
Names bound to an ordered list of host states.

A look-up asks the states in order and the first one that knows the name answers.
In strict mode a name that none of them knows is a fault.  In lenient mode it is
read from the shadow, a store of names that no state defines, or else stands for
a default.
-/

namespace Parley

/-- What kind of default suits the place where a name is read. -/
inductive Hint where
  | boolean
  | number
  | text
deriving DecidableEq, Repr

namespace Hint

def word : Hint → String
  | .boolean => "boolean"
  | .number => "number"
  | .text => "string"

/-- Any unknown word asks for a truth value. -/
def ofWord (s : String) : Hint :=
  if s == Hint.number.word then .number else if s == Hint.text.word then .text else .boolean

def ofValue : Value → Hint
  | .int _ | .float _ | .nan _ => .number
  | .text _ => .text
  | _ => .boolean

/-- The default for a name; a name with a point in it stands for a float. -/
def default (name : String) : Hint → Value
  | .boolean => .bool false
  | .number => if name.contains '.' then .float 0.0 else .int 0
  | .text => .text ""

theorem ofWord_word (h : Hint) : ofWord h.word = h := by
  cases h <;> decide

end Hint

structure Bindings where
  /-- Every state of the session, at its own place. -/
  hosts : List Host := []
  /-- The places of the states that are asked, in order. -/
  active : List Nat := []
  shadow : Table := []
  strict : Bool := true

namespace Bindings

/-- The states that are asked, in order, with their places. -/
def providers (b : Bindings) : List (Nat × Host) :=
  b.active.filterMap fun i => b.hosts[i]?.map fun h => (i, h)

/-- The first element that passes a test which may fail. -/
def firstM (test : Nat → Host → Except Fault Bool) : List (Nat × Host) → Except Fault (Option Nat)
  | [] => .ok none
  | (i, h) :: rest =>
    match test i h with
    | .error f => .error f
    | .ok true => .ok (some i)
    | .ok false => firstM test rest

section

variable {test : Nat → Host → Except Fault Bool} {l : List (Nat × Host)}

/-- The element that is found is there and passes the test. -/
theorem exists_of_firstM {i : Nat} (h : firstM test l = .ok (some i)) :
    ∃ k, (i, k) ∈ l ∧ test i k = .ok true := by
  induction l with
  | nil => cases h
  | cons p rest ih =>
    obtain ⟨j, k⟩ := p
    simp only [firstM] at h
    split at h
    · cases h
    · next htest =>
      cases h
      exact ⟨k, List.mem_cons_self, htest⟩
    · obtain ⟨k', hk', htest⟩ := ih h
      exact ⟨k', List.mem_cons_of_mem _ hk', htest⟩

end

theorem mem_providers {b : Bindings} {i : Nat} {h : Host} :
    (i, h) ∈ b.providers ↔ i ∈ b.active ∧ b.hosts[i]? = some h := by
  constructor
  · intro hi
    obtain ⟨j, hj, hjh⟩ := List.mem_filterMap.mp hi
    obtain ⟨k, hk, he⟩ := Option.map_eq_some_iff.mp hjh
    cases he
    exact ⟨hj, hk⟩
  · rintro ⟨hi, hh⟩
    exact List.mem_filterMap.mpr ⟨i, hi, by rw [hh]; rfl⟩

/-- The place of the first state with a property. -/
def owner? (b : Bindings) (name : Value) : Except Fault (Option Nat) :=
  firstM (fun i h => h.hasProperty i name) b.providers

def methodOwner? (b : Bindings) (name : Value) : Except Fault (Option Nat) :=
  firstM (fun i h => h.hasMethod i name) b.providers

def propertyAt (b : Bindings) (i : Nat) (name : Value) : Except Fault Value :=
  match b.hosts[i]? with
  | some h => h.property i name
  | none => .error (Host.missingKey name)

/-- What a name stands for. -/
def lookup (b : Bindings) (hint : Hint) (name : String) : Except Fault Value :=
  match b.owner? (.text name) with
  | .error f => .error f
  | .ok (some i) => b.propertyAt i (.text name)
  | .ok none =>
    if b.strict then .error (.unknownProperty name)
    else match b.shadow.find? (.text name) with
      | some v => .ok v
      | none => .ok (hint.default name)

/-- What a raw token stands for: itself if it is no text, the literal it spells,
or the value of a name. -/
def valueOf (b : Bindings) (hint : Hint) : Value → Except Fault Value
  | .text s =>
    match Literal.read? s with
    | some r => r
    | none => b.lookup hint s
  | v => .ok v

theorem valueOf_of_literal {s : String} {r : Except Fault Value} (h : Literal.read? s = some r)
    (b : Bindings) (hint : Hint) : b.valueOf hint (.text s) = r := by
  simp [valueOf, h]

def valuesOf (b : Bindings) : List Value → Except Fault (List Value)
  | [] => .ok []
  | t :: ts => do
    let v ← b.valueOf .boolean t
    let vs ← b.valuesOf ts
    return v :: vs

def writeAt (b : Bindings) (i : Nat) (name value : Value) : Except Fault Bindings :=
  match b.hosts[i]? with
  | some h => (h.write name value).map fun h => { b with hosts := b.hosts.set i h }
  | none => .ok b

/-- A write to a state leaves everything else as it is. -/
theorem exists_hosts_of_writeAt {b c : Bindings} {i : Nat} {name value : Value}
    (h : b.writeAt i name value = .ok c) : ∃ hosts, c = { b with hosts } := by
  unfold writeAt at h
  split at h
  · next k _ =>
    cases hk : k.write name value with
    | error f =>
      rw [hk] at h
      cases h
    | ok k' =>
      rw [hk] at h
      cases h
      exact ⟨_, rfl⟩
  · cases h
    exact ⟨b.hosts, rfl⟩

def writeShadow (b : Bindings) (name value : Value) : Except Fault Bindings :=
  name.checkKey.map fun _ => { b with shadow := b.shadow.insert name value }

def code? (b : Bindings) (c : Callable) : Option Code := b.hosts[c.owner]?.bind (·.code? c)

end Bindings
end Parley
