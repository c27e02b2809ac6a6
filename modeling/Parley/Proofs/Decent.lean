import Parley.Proofs.Known
import Parley.Proofs.Write

/-
Host states that do not fail for want of a name.

A state is decent if no getter of it says that a name is unknown, and no code of it does
unless a request has said so before.  In lenient mode nothing that scripts read from
decent states fails for want of a name, be it a value, a list of tokens, a property, a
setter or a method.  Writes keep states decent: they change values, while getters and code
stay.
-/

namespace Parley

/-- Code that never fails for want of a name, as long as its requests do not. -/
def Routine.Decent : Routine → Prop
  | .give _ => True
  | .fail f => f.isUnknownName = false
  | .note _ next | .write _ _ next | .pause next => next.Decent
  | .read _ next | .keep _ next => ∀ v, (next v).Decent
  | .request _ _ next => ∀ answer, Known answer → (next answer).Decent

structure Host.Decent (h : Host) : Prop where
  getters : ∀ (label : String) (getters : List (String × Except Fault Value)) (name : String)
    (g : Except Fault Value), h.style = .object label getters → getters.lookup name = some g →
      Known g
  code : ∀ (c : Callable) (code : Code) (args : List Value), h.code? c = some code →
    (code args).Decent

def Bindings.Decent (b : Bindings) : Prop := ∀ h ∈ b.hosts, h.Decent

open Known

namespace Host

theorem isUnknownName_missingKey (name : Value) : (missingKey name).isUnknownName = false := by
  unfold missingKey
  split
  · rfl
  · next f hf => exact Value.known_written name f hf

theorem known_probe {test : Value → Bool} {x : Except Fault Value} (hx : Known x) :
    Known (probe test x) := by
  unfold probe
  split
  · exact ok _
  · next f =>
    split
    · exact ok _
    · exact error (hx f rfl)

theorem known_probePublic {test : Value → Bool} {look : String → Except Fault Value}
    (hlook : ∀ s, Known (look s)) (name : Value) : Known (probePublic test look name) := by
  unfold probePublic
  split
  · split
    · exact known_probe (hlook _)
    · exact ok _
  · split
    · exact error rfl
    · exact ok _

theorem known_write (h : Host) (name value : Value) : Known (h.write name value) := by
  unfold write
  split
  · exact (Value.known_checkKey name).map _
  · split
    · split
      · exact error rfl
      · exact ok _
    · exact error rfl

namespace Decent

variable {h h' : Host} (hh : h.Decent)
include hh

theorem of_same {named : Value → Prop} (hs : h.Same named h') : h'.Decent where
  getters label getters name g hstyle := hh.getters label getters name g (hs.style_eq ▸ hstyle)
  code c code args hc := hh.code c code args (by rw [← hs.code?_eq c, hc])

theorem known_look {label : String} {getters : List (String × Except Fault Value)}
    (hstyle : h.style = .object label getters) (i : Nat) (name : String) :
    Known (h.look i label getters name) := by
  unfold Host.look
  split
  · next g hg => exact hh.getters label getters name g hstyle hg
  · split
    · exact ok _
    · split
      · exact ok _
      · exact ok _
      · exact error rfl

theorem known_hasProperty (i : Nat) (name : Value) : Known (h.hasProperty i name) := by
  unfold Host.hasProperty
  split
  · exact (Value.known_checkKey name).map _
  · next label getters hstyle => exact known_probePublic (hh.known_look hstyle i) name

theorem known_property (i : Nat) (name : Value) : Known (h.property i name) := by
  unfold Host.property
  split
  · split
    · next f hf => exact error (Value.known_checkKey name f hf)
    · split
      · exact ok _
      · exact error (isUnknownName_missingKey name)
  · next label getters hstyle =>
    split
    · exact hh.known_look hstyle i _
    · exact error rfl

theorem known_setter? (i : Nat) : Known (h.setter? i) := by
  unfold Host.setter?
  split
  · exact ok _
  · next label getters hstyle =>
    split
    · exact ok _
    · exact ok _
    · next f hf =>
      split
      · exact ok _
      · exact error (hh.known_look hstyle i "set" f hf)

theorem known_hasMethod (i : Nat) (name : Value) : Known (h.hasMethod i name) := by
  unfold Host.hasMethod
  split
  · exact (Value.known_checkKey name).map _
  · next label getters hstyle => exact known_probePublic (hh.known_look hstyle i) name

theorem known_callee (i : Nat) (name : Value) : Known (h.callee i name) := by
  unfold Host.callee
  split
  · split
    · next f hf => exact error (Value.known_checkKey name f hf)
    · split
      · split
        · exact ok _
        · exact error rfl
        · exact error (isUnknownName_missingKey _)
      · exact error (isUnknownName_missingKey name)
  · split
    · exact ok _
    · exact error rfl
    · next f hf => exact error (hh.known_property i name f hf)

end Decent
end Host

namespace Bindings

variable {b c : Bindings}

theorem known_writeAt (b : Bindings) (i : Nat) (name value : Value) :
    Known (b.writeAt i name value) := by
  unfold writeAt
  split
  · exact (Host.known_write _ name value).map _
  · exact ok _

theorem known_writeShadow (b : Bindings) (name value : Value) :
    Known (b.writeShadow name value) :=
  (Value.known_checkKey name).map _

theorem known_firstM {test : Nat → Host → Except Fault Bool} {l : List (Nat × Host)}
    (h : ∀ p ∈ l, Known (test p.1 p.2)) : Known (firstM test l) := by
  induction l with
  | nil => exact ok none
  | cons p rest ih =>
    obtain ⟨i, k⟩ := p
    simp only [firstM]
    split
    · next f hf => exact error (h (i, k) List.mem_cons_self f hf)
    · exact ok _
    · exact ih fun q hq => h q (List.mem_cons_of_mem _ hq)

namespace Decent

variable (hb : b.Decent)
include hb

theorem of_same {named : Value → Prop} (hs : b.Same named c) : c.Decent := by
  intro h' hmem
  obtain ⟨i, hi⟩ := List.mem_iff_getElem?.mp hmem
  obtain ⟨h, hh, hsame⟩ := hs.exists_host hi
  exact (hb h (List.mem_of_getElem? hh)).of_same hsame

theorem code {callable : Callable} {code : Code} (hc : b.code? callable = some code)
    (args : List Value) : (code args).Decent := by
  obtain ⟨h, hi, hcode⟩ := Option.bind_eq_some_iff.mp hc
  exact (hb h (List.mem_of_getElem? hi)).code callable code args hcode

theorem of_mem_providers {p : Nat × Host} (hp : p ∈ b.providers) : p.2.Decent :=
  hb p.2 (List.mem_of_getElem? (mem_providers.mp hp).2)

theorem known_owner? (name : Value) : Known (b.owner? name) :=
  known_firstM fun _ hp => (hb.of_mem_providers hp).known_hasProperty _ name

theorem known_methodOwner? (name : Value) : Known (b.methodOwner? name) :=
  known_firstM fun _ hp => (hb.of_mem_providers hp).known_hasMethod _ name

/-- A question to the state at a place, which may not be there. -/
theorem known_at {α : Type} {f : Host → Except Fault α} (hf : ∀ h : Host, h.Decent → Known (f h))
    {absent : Except Fault α} (habsent : Known absent) (i : Nat) :
    Known (match b.hosts[i]? with
      | some h => f h
      | none => absent) := by
  split
  · next h hi => exact hf h (hb h (List.mem_of_getElem? hi))
  · exact habsent

theorem known_propertyAt (i : Nat) (name : Value) : Known (b.propertyAt i name) :=
  hb.known_at (fun _ hh => hh.known_property i name)
    (error (Host.isUnknownName_missingKey name)) i

variable (hs : b.strict = false)
include hs

theorem known_lookup (hint : Hint) (name : String) : Known (b.lookup hint name) := by
  unfold lookup
  split
  · next f hf => exact error (hb.known_owner? _ f hf)
  · exact hb.known_propertyAt _ _
  · rw [hs]
    split
    · next hstrict => cases hstrict
    · split
      · exact ok _
      · exact ok _

theorem known_valueOf (hint : Hint) (v : Value) : Known (b.valueOf hint v) := by
  unfold valueOf
  split
  · split
    · next r hr => exact known_literal hr
    · exact hb.known_lookup hs hint _
  · exact ok _

theorem known_valuesOf (args : List Value) : Known (b.valuesOf args) := by
  induction args with
  | nil => exact ok []
  | cons a args ih => exact (hb.known_valueOf hs _ a).bind fun _ => ih.bind fun _ => ok _

theorem known_total (hint : Hint) (ts : List Token) : Known (b.total hint ts) := by
  have hcombine (op : Operator) (l r : Value) : Known (b.combine hint op l r) :=
    (hb.known_valueOf hs hint l).bind fun x => (hb.known_valueOf hs hint r).bind fun y =>
      (Value.known_apply op x y).bind fun _ => ok _
  refine (Token.known_fold hcombine _ [] ts).bind fun ts =>
    (Token.known_fold hcombine _ [] ts).bind fun ts => ?_
  split
  · split
    · exact hb.known_valueOf hs hint _
    · exact error rfl
  · exact error rfl

end Decent

mutual

theorem Decent.known_resolve (hb : b.Decent) (hs : b.strict = false) (hint : Hint) (v : Value) :
    Known (b.resolve hint v) := by
  cases v with
  | list ts => exact hb.known_resolveTokens hs hint ts
  | tuple ts => exact hb.known_resolveTokens hs hint ts
  | _ =>
    simp only [resolve]
    exact hb.known_valueOf hs hint _
  termination_by structural v

theorem Decent.known_resolveTokens (hb : b.Decent) (hs : b.strict = false) (hint : Hint)
    (ts : List Value) : Known (b.resolveTokens hint ts) := by
  cases ts with
  | nil => exact error rfl
  | cons t ts =>
    exact (hb.known_reduce hs hint t).bind fun first =>
      (hb.known_reduceAll hs hint ts).bind fun rest => hb.known_total hs hint (first :: rest)
  termination_by structural ts

theorem Decent.known_reduce (hb : b.Decent) (hs : b.strict = false) (hint : Hint) (v : Value) :
    Known (b.reduce hint v) := by
  cases v with
  | dict es =>
    have hentry := hb.known_resolveEntry hs hint es
    simp only [reduce]
    split
    · split
      · exact ok _
      · next f hf => exact error (hentry f hf)
    · exact ok _
  | _ => exact error rfl
  termination_by structural v

theorem Decent.known_reduceAll (hb : b.Decent) (hs : b.strict = false) (hint : Hint)
    (ts : List Value) : Known (b.reduceAll hint ts) := by
  cases ts with
  | nil => exact ok []
  | cons t ts =>
    exact (hb.known_reduce hs hint t).bind fun _ =>
      (hb.known_reduceAll hs hint ts).bind fun _ => ok _
  termination_by structural ts

theorem Decent.known_resolveEntry (hb : b.Decent) (hs : b.strict = false) (hint : Hint)
    (es : List (Value × Value)) : Known (b.resolveEntry hint es) := by
  cases es with
  | nil => exact hb.known_valueOf hs hint .null
  | cons e rest =>
    obtain ⟨k, v⟩ := e
    simp only [resolveEntry]
    cases Token.isKey "value" k with
    | true => exact hb.known_resolve hs hint v
    | false => exact hb.known_resolveEntry hs hint rest
  termination_by structural es

end

end Bindings
end Parley
