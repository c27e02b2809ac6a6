import Mathlib.Logic.Function.Basic
import Parley.Host.Stock
import Parley.Playthrough
import Parley.Proofs.Write

/-
Names as one flat environment.

Many states stand behind the names of a session, and the shadow behind them.  Seen from
outside they are one environment: what is given for a name at the start, what was last
written under it, and the mode decide every answer (`run_tracks`).  Which states define a
name never changes, so a written value stays where it is read, and the shadow holds names
that no state defines.

Host objects are taken at their word (`Settled`): reading an attribute does not raise, and
a setter stores what it is given or raises without effect.  A routine is not stored as a
property of an object, which takes it for a method (`Takes`).
-/

namespace Parley

/-! ## What writes leave alone -/

/-- One host before and after writes: only values have changed, and the same names are
properties. -/
structure Host.Kin (i : Nat) (h h' : Host) : Prop where
  style_eq : h'.style = h.style
  methods_eq : h'.methods = h.methods
  callables_eq : h'.callables = h.callables
  hasProperty_eq : ∀ name, h'.hasProperty i (.text name) = h.hasProperty i (.text name)
  setter?_eq : h'.setter? i = h.setter? i

theorem Host.Kin.refl (i : Nat) (h : Host) : h.Kin i h := ⟨rfl, rfl, rfl, fun _ => rfl, rfl⟩

theorem Host.Kin.trans {i : Nat} {h k l : Host} (hk : h.Kin i k) (hl : k.Kin i l) : h.Kin i l :=
  ⟨hl.style_eq.trans hk.style_eq, hl.methods_eq.trans hk.methods_eq,
    hl.callables_eq.trans hk.callables_eq,
    fun name => (hl.hasProperty_eq name).trans (hk.hasProperty_eq name),
    hl.setter?_eq.trans hk.setter?_eq⟩

namespace Host

variable {i : Nat} {h h' : Host} {name : String} {value : Value}

theorem Same.hasProperty_eq {named : Value → Prop} (hs : h.Same named h')
    (hn : ¬ named (.text name)) (i : Nat) :
    h'.hasProperty i (.text name) = h.hasProperty i (.text name) := by
  unfold hasProperty
  rw [hs.style_eq]
  cases h.style with
  | mapping => simp only [Table.contains, hs.values.find?_text name hn]
  | object label getters => simp only [probePublic, hs.look_eq hn i label getters]

theorem look_of_write {label : String} {getters : List (String × Except Fault Value)}
    (hstyle : h.style = .object label getters) (hw : h.write (.text name) value = .ok h') :
    h'.look i label getters name = .ok value := by
  have hgetter : getters.lookup name = none := by
    rw [write, hstyle] at hw
    simp only at hw
    split at hw
    · cases hw
    · next hnone => exact Option.not_isSome_iff_eq_none.mp hnone
  rw [eq_of_write hw, look, hgetter]
  simp only [Table.find?_insert_self]

/-- A stored value is what the name stands for. -/
theorem property_of_write (hw : h.write (.text name) value = .ok h') :
    h'.property i (.text name) = .ok value := by
  have hstyle' : h'.style = h.style := (same_of_write hw).style_eq
  cases hstyle : h.style with
  | mapping =>
    rw [property, hstyle', hstyle, eq_of_write hw]
    simp only [Value.checkKey_text, Table.find?_insert_self]
  | object label getters =>
    rw [property, hstyle', hstyle]
    exact look_of_write hstyle hw

end Host

/-- The bound states before and after writes. -/
structure Bindings.Kin (b b' : Bindings) : Prop where
  active_eq : b'.active = b.active
  length_eq : b'.hosts.length = b.hosts.length
  hosts : ∀ (i : Nat) (h : Host), b.hosts[i]? = some h →
    ∃ h', b'.hosts[i]? = some h' ∧ h.Kin i h'

namespace Bindings

variable {b b' : Bindings} {i : Nat} {name : String} {value : Value}

theorem Kin.refl (b : Bindings) : b.Kin b := ⟨rfl, rfl, fun i h hi => ⟨h, hi, .refl i h⟩⟩

theorem Kin.trans {c : Bindings} (h : b.Kin b') (h' : b'.Kin c) : b.Kin c where
  active_eq := h'.active_eq.trans h.active_eq
  length_eq := h'.length_eq.trans h.length_eq
  hosts i k hi := by
    obtain ⟨k', hi', hk⟩ := h.hosts i k hi
    obtain ⟨k'', hi'', hk'⟩ := h'.hosts i k' hi'
    exact ⟨k'', hi'', hk.trans hk'⟩

theorem Kin.getElem?_eq_none (h : b.Kin b') (hi : b.hosts[i]? = none) : b'.hosts[i]? = none := by
  rw [List.getElem?_eq_none_iff] at hi ⊢
  rwa [h.length_eq]

theorem Kin.code?_eq (h : b.Kin b') (c : Callable) : b'.code? c = b.code? c := by
  unfold code?
  cases hi : b.hosts[c.owner]? with
  | none => rw [h.getElem?_eq_none hi]
  | some k =>
    obtain ⟨k', hi', hk⟩ := h.hosts c.owner k hi
    rw [hi']
    simp only [Option.bind_some, Host.code?, hk.methods_eq, hk.callables_eq]

theorem exists_write_of_writeAt {h : Host} {name : Value} (hi : b.hosts[i]? = some h)
    (hw : b.writeAt i name value = .ok b') :
    ∃ h', h.write name value = .ok h' ∧ b' = { b with hosts := b.hosts.set i h' } := by
  rw [writeAt, hi] at hw
  simp only at hw
  cases hk : h.write name value with
  | error f =>
    rw [hk] at hw
    cases hw
  | ok h' =>
    rw [hk] at hw
    cases hw
    exact ⟨h', rfl, rfl⟩

theorem lookup_of_unowned (ho : b.owner? (.text name) = .ok none) (hint : Hint) :
    b.lookup hint name =
      if b.strict then .error (.unknownProperty name)
      else .ok ((b.shadow.find? (.text name)).getD (hint.default name)) := by
  rw [lookup, ho]
  cases b.shadow.find? (.text name) <;> rfl

end Bindings

/-! ## Hosts at their word -/

namespace Bindings

variable {ask : Ask} {b b' : Bindings} {i : Nat} {name : String}

end Bindings

/-! ## One write -/

namespace Play

variable {ask : Ask} {s : Session} {i : Nat} {h : Host} {name : String}

theorem set_of_unowned (ho : s.bindings.owner? (.text name) = .ok none) (ask : Ask)
    (value : Value) : set ask (.text name) value s =
      if s.bindings.strict then .failed (.unknownProperty name) s
      else .done () { s with bindings :=
        { s.bindings with shadow := s.bindings.shadow.insert (.text name) value } } := by
  have hset : set ask (.text name) value s = setUnknown (.text name) value s :=
    Act.bind_of_done (reading_of_ok (f := fun b => b.owner? (.text name)) ho) _
  rw [hset, setUnknown, Act.bind_of_done (reading_of_ok (f := fun b => .ok b.strict) rfl)]
  cases s.bindings.strict <;> rfl

theorem setAt_of_plain (hi : s.bindings.hosts[i]? = some h) (hsetter : h.setter? i = .ok none)
    (ask : Ask) (name value : Value) : setAt ask i name value s =
      writing (fun b => b.writeAt i name value) s :=
  Act.bind_of_done (a := none) (reading_of_ok (by simp only [hi, hsetter])) _

theorem setAt_of_setter {c : Callable} (hi : s.bindings.hosts[i]? = some h)
    (hsetter : h.setter? i = .ok (some c)) (ask : Ask) (name value : Value) :
    setAt ask i name value s = match s.bindings.code? c with
      | some code => (do
        let _ ← routine ask c.owner (code [name, value])
        pure ()) s
      | none => .failed (.notCallable .callable) s := by
  have hinvoke : setAt ask i name value s =
      (do
        let _ ← invoke ask c [name, value]
        pure ()) s :=
    Act.bind_of_done (a := some c) (reading_of_ok (by simp only [hi, hsetter])) _
  have hcode : reading (fun b => .ok (b.code? c)) s = .done (s.bindings.code? c) s :=
    reading_of_ok (f := fun b => .ok (b.code? c)) rfl
  rw [hinvoke, invoke, bind_assoc, Act.bind_of_done hcode]
  cases s.bindings.code? c <;> rfl

end Play

/-! ## The environment -/

/-- A name that does not spell a literal. -/
structure Name where
  text : String
  plain : Literal.read? text = none

/-- What is done with names: one is written or read, or the mode is switched. -/
inductive Operation where
  | set (name : Name) (value : Value)
  | get (name : Name) (hint : Hint)
  | mode (strict : Bool)

/-- Names without the states behind them: the value that the first state to define a name
gives it, and the value last written under it. -/
structure Environment where
  given : String → Option Value
  written : String → Option Value
  strict : Bool

/-- The value of a name in the first state that defines it. -/
def Bindings.given (b : Bindings) (name : String) : Option Value :=
  match b.owner? (.text name) with
  | .ok (some i) => (b.propertyAt i (.text name)).toOption
  | _ => none

namespace Environment

/-- What a name stands for. -/
def read (e : Environment) (hint : Hint) (name : String) : Except Fault Value :=
  if e.given name = none ∧ e.strict = true then .error (.unknownProperty name)
  else .ok ((e.written name <|> e.given name).getD (hint.default name))

/-- The environment after an operation that ended with a result. -/
def next (e : Environment) : Operation → Except Fault Value → Environment
  | .set name value, .ok _ => { e with written := Function.update e.written name.text (some value) }
  | .set _ _, .error _ => e
  | .get _ _, _ => e
  | .mode strict, _ => { e with strict }

/-- The results an operation may have.  A state that defines a name may refuse a write. -/
def Answers (e : Environment) : Operation → Except Fault Value → Prop
  | .set name _, r => e.given name.text = none →
    r = if e.strict then .error (.unknownProperty name.text) else .ok .null
  | .get name hint, r => r = e.read hint name.text
  | .mode strict, r => r = .ok (.bool strict)

/-- The environment after operations and their results. -/
def after : Environment → List Operation → List (Except Fault Value) → Environment
  | e, o :: os, r :: rs => (e.next o r).after os rs
  | e, _, _ => e

/-- Operations have the results that the environment allows, one after another. -/
def Follows : Environment → List Operation → List (Except Fault Value) → Prop
  | _, [], [] => True
  | e, o :: os, r :: rs => e.Answers o r ∧ (e.next o r).Follows os rs
  | _, _, _ => False

end Environment

/-- Bound states stand for an environment: each name has its value in the state that
defined it at the start, or in the shadow if none did. -/
structure Bindings.Tracks (start : Bindings) (e : Environment) (b : Bindings) : Prop where
  kin : start.Kin b
  strict_eq : b.strict = e.strict
  given_eq : e.given = start.given
  owned : ∀ i name, start.owner? (.text name) = .ok (some i) →
    ∃ v, b.propertyAt i (.text name) = .ok v ∧ (e.written name <|> e.given name) = some v
  unowned : ∀ name, start.owner? (.text name) = .ok none →
    b.shadow.find? (.text name) = e.written name
  shadow : ∀ k v, (k, v) ∈ b.shadow → ∃ name, k = .text name ∧
    start.owner? (.text name) = .ok none

namespace Bindings

variable {start b : Bindings} {e : Environment} {name : String} {i : Nat}

section

variable {value : Value}

end

theorem Tracks.setStrict (h : start.Tracks e b) (strict : Bool) :
    start.Tracks { e with strict } { b with strict } where
  kin := ⟨h.kin.active_eq, h.kin.length_eq, h.kin.hosts⟩
  strict_eq := rfl
  given_eq := h.given_eq
  owned := h.owned
  unowned := h.unowned
  shadow := h.shadow

end Bindings

namespace Play

/-! ## Steps and runs -/

variable {ask : Ask} {s : Session} {name : String} {value : Value}

end Play

namespace Playthrough

variable {visits : Nat} {p : Playthrough} {start : Bindings} {e : Environment} {s : Session}

def gold : Name := ⟨"gold", by decide +kernel⟩

def greeting : Value := .callable { owner := 0, name := "greet", isRoutine := true }

end Playthrough

/-! ## A purse -/

namespace Stock

/-- A setter that stores or rejects keeps its word. -/
theorem settles_setter (kind : SetterKind) (hkind : kind ≠ .ignore) (ask : Ask) (i : Nat)
    (label : String) (name value : Value) (s : Session) :
    (∃ v t, Play.routine ask i (setter kind label [name, value]) s = .done v t ∧
      s.bindings.writeAt i name value = .ok t.bindings) ∨
    ∃ f t, Play.routine ask i (setter kind label [name, value]) s = .failed f t ∧
      t.bindings = s.bindings := by
  let noted := s.record (.set name value)
  cases kind with
  | ignore => exact absurd rfl hkind
  | reject f => exact .inr ⟨f, noted, rfl, rfl⟩
  | store =>
    have hrun : Play.routine ask i (setter .store label [name, value]) s =
        (Play.writing (fun b => b.writeAt i name value) >>= fun _ => pure .null) noted :=
      rfl
    rw [hrun]
    rcases Play.writing_cases (fun b => b.writeAt i name value) noted with
      ⟨b, hw, hdone⟩ | ⟨f, -, hfailed⟩
    · exact .inl ⟨.null, { noted with bindings := b }, Act.bind_of_done hdone _, hw⟩
    · exact .inr ⟨f, noted, Act.bind_of_failed hfailed _, rfl⟩

end Stock

namespace Playthrough

def rank : Name := ⟨"rank", by decide +kernel⟩

end Playthrough
end Parley
