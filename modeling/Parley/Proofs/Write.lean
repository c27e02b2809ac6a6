import Parley.Proofs.Plain
import Parley.Proofs.Guard

/-
What a change writes.

A change without calls stores at most one value, under the name on its left side, in
one of the bound states or in the shadow; a change that fails stores nothing
(`mutate_outcome`).  This takes host objects at their word: a setter must store or
else fail without a trace in the states (`WritesWhole`).  `Bindings.Same` is the frame
of such writes: everything under other names stays.
-/

namespace Parley

/-! ## The frame of a write -/

/-- Two tables that agree on all keys but the named ones. -/
structure Table.Same (named : Value → Prop) (t t' : Table) : Prop where
  mem_iff : ∀ k v, ¬ named k → ((k, v) ∈ t' ↔ (k, v) ∈ t)
  find?_text : ∀ s, ¬ named (.text s) → t'.find? (.text s) = t.find? (.text s)

/-- Two states of one host that agree on all properties but the named ones. -/
structure Host.Same (named : Value → Prop) (h h' : Host) : Prop where
  style_eq : h'.style = h.style
  methods_eq : h'.methods = h.methods
  callables_eq : h'.callables = h.callables
  values : h.values.Same named h'.values

/-- Bound states that agree on everything but the named properties. -/
structure Bindings.Same (named : Value → Prop) (b b' : Bindings) : Prop where
  active_eq : b'.active = b.active
  strict_eq : b'.strict = b.strict
  shadow : b.shadow.Same named b'.shadow
  length_eq : b'.hosts.length = b.hosts.length
  hosts : ∀ (i : Nat) (h : Host), b.hosts[i]? = some h →
    ∃ h', b'.hosts[i]? = some h' ∧ h.Same named h'

/-- The keys a write under a name may touch. -/
def Value.Touches (name k : Value) : Prop := k = name ∨ name.alike k = true

section

variable {named named' : Value → Prop}

theorem Table.Same.refl (named : Value → Prop) (t : Table) : t.Same named t :=
  ⟨fun _ _ _ => Iff.rfl, fun _ _ => rfl⟩

theorem Table.Same.trans {t u v : Table} (h : t.Same named u) (h' : u.Same named v) :
    t.Same named v :=
  ⟨fun k w hk => (h'.mem_iff k w hk).trans (h.mem_iff k w hk),
    fun s hs => (h'.find?_text s hs).trans (h.find?_text s hs)⟩

theorem Table.Same.mono {t u : Table} (h : t.Same named u) (hn : ∀ k, named k → named' k) :
    t.Same named' u :=
  ⟨fun k w hk => h.mem_iff k w fun hk' => hk (hn k hk'),
    fun s hs => h.find?_text s fun hs' => hs (hn _ hs')⟩

theorem Table.mem_insert_iff {name value : Value} (t : Table) {k v : Value}
    (hk : ¬ name.Touches k) : (k, v) ∈ t.insert name value ↔ (k, v) ∈ t := by
  have hne : k ≠ name := fun h => hk (.inl h)
  induction t with
  | nil => simp [Table.insert, hne]
  | cons e rest ih =>
    obtain ⟨k', w⟩ := e
    by_cases h : name.alike k' = true
    · have hk' : k ≠ k' := fun e => hk (.inr (e ▸ h))
      simp [Table.insert, h, hk']
    · simp [Table.insert, h, ih]

theorem Table.find?_insert_of_not_touches {name value : Value} (t : Table) {s : String}
    (hs : ¬ name.Touches (.text s)) :
    (t.insert name value).find? (.text s) = t.find? (.text s) := by
  have hname : (Value.text s).alike name = false :=
    Bool.eq_false_iff.mpr fun h => hs (.inl (Value.text_alike h).symm)
  induction t with
  | nil => simp [Table.insert, Table.find?, hname]
  | cons e rest ih =>
    obtain ⟨k, w⟩ := e
    by_cases h : name.alike k = true
    · have hk : (Value.text s).alike k = false :=
        Bool.eq_false_iff.mpr fun hk => hs (.inr (Value.text_alike hk ▸ h))
      simp [Table.insert, Table.find?, h, hk]
    · by_cases hk : (Value.text s).alike k = true
      · simp [Table.insert, Table.find?, h, hk]
      · simp only [Table.find?] at ih ⊢
        simpa [Table.insert, h, hk] using ih

theorem Table.same_insert (t : Table) (name value : Value) :
    t.Same name.Touches (t.insert name value) :=
  ⟨fun _ _ hk => Table.mem_insert_iff t hk, fun _ hs => Table.find?_insert_of_not_touches t hs⟩

theorem Host.Same.refl (named : Value → Prop) (h : Host) : h.Same named h :=
  ⟨rfl, rfl, rfl, Table.Same.refl named _⟩

theorem Host.Same.trans {h k l : Host} (hk : h.Same named k) (hl : k.Same named l) :
    h.Same named l :=
  ⟨hl.style_eq.trans hk.style_eq, hl.methods_eq.trans hk.methods_eq,
    hl.callables_eq.trans hk.callables_eq, hk.values.trans hl.values⟩

theorem Bindings.Same.refl (named : Value → Prop) (b : Bindings) : b.Same named b :=
  ⟨rfl, rfl, Table.Same.refl named _, rfl, fun _ h hi => ⟨h, hi, Host.Same.refl named h⟩⟩

theorem Bindings.Same.trans {b c d : Bindings} (h : b.Same named c) (h' : c.Same named d) :
    b.Same named d where
  active_eq := h'.active_eq.trans h.active_eq
  strict_eq := h'.strict_eq.trans h.strict_eq
  shadow := h.shadow.trans h'.shadow
  length_eq := h'.length_eq.trans h.length_eq
  hosts i k hi := by
    obtain ⟨k', hi', hk⟩ := h.hosts i k hi
    obtain ⟨k'', hi'', hk'⟩ := h'.hosts i k' hi'
    exact ⟨k'', hi'', hk.trans hk'⟩

theorem Bindings.Same.mono {b c : Bindings} (h : b.Same named c) (hn : ∀ k, named k → named' k) :
    b.Same named' c where
  active_eq := h.active_eq
  strict_eq := h.strict_eq
  shadow := h.shadow.mono hn
  length_eq := h.length_eq
  hosts i k hi := by
    obtain ⟨k', hi', hk⟩ := h.hosts i k hi
    exact ⟨k', hi', hk.style_eq, hk.methods_eq, hk.callables_eq, hk.values.mono hn⟩

end

/-- One value was stored under a name. -/
def Bindings.Stores (name : Value) (b b' : Bindings) : Prop :=
  (∃ i value, b.writeAt i name value = .ok b') ∨ ∃ value, b.writeShadow name value = .ok b'

theorem Host.eq_of_write {h h' : Host} {name value : Value} (hw : h.write name value = .ok h') :
    h' = { h with values := h.values.insert name value } := by
  unfold Host.write at hw
  split at hw
  · cases hk : name.checkKey with
    | ok u =>
      rw [hk] at hw
      cases hw
      rfl
    | error e =>
      rw [hk] at hw
      cases hw
  · split at hw
    · split at hw
      · cases hw
      · cases hw
        rfl
    · cases hw

theorem Host.same_of_write {h h' : Host} {name value : Value} (hw : h.write name value = .ok h') :
    h.Same name.Touches h' := by
  obtain rfl := Host.eq_of_write hw
  exact ⟨rfl, rfl, rfl, Table.same_insert _ _ _⟩

/-- A stored value touches its own name only. -/
theorem Bindings.Stores.same {name : Value} {b b' : Bindings} (h : b.Stores name b') :
    b.Same name.Touches b' := by
  rcases h with ⟨i, value, hw⟩ | ⟨value, hw⟩
  · unfold Bindings.writeAt at hw
    split at hw
    · next h hi =>
      cases hk : h.write name value with
      | error e =>
        rw [hk] at hw
        cases hw
      | ok h' =>
        rw [hk] at hw
        cases hw
        refine ⟨rfl, rfl, Table.Same.refl _ _, List.length_set, fun j k hj => ?_⟩
        by_cases hij : i = j
        · subst hij
          obtain rfl : h = k := Option.some.inj (hi.symm.trans hj)
          have hlt : i < b.hosts.length := (List.getElem?_eq_some_iff.mp hi).1
          exact ⟨h', List.getElem?_set_self hlt, Host.same_of_write hk⟩
        · exact ⟨k, by rw [List.getElem?_set_ne hij, hj], Host.Same.refl _ k⟩
    · cases hw
      exact Bindings.Same.refl _ b
  · unfold Bindings.writeShadow at hw
    cases hk : name.checkKey with
    | error e =>
      rw [hk] at hw
      cases hw
    | ok u =>
      rw [hk] at hw
      cases hw
      exact ⟨rfl, rfl, Table.same_insert _ _ _, rfl, fun j k hj => ⟨k, hj, Host.Same.refl _ k⟩⟩

/-! ## Properties outside the frame -/

section

variable {named : Value → Prop}

theorem Host.Same.look_eq {h h' : Host} (hs : h.Same named h') {name : String}
    (hn : ¬ named (.text name)) (owner : Nat) (label : String)
    (getters : List (String × Except Fault Value)) :
    h'.look owner label getters name = h.look owner label getters name := by
  unfold Host.look
  rw [hs.values.find?_text name hn, hs.methods_eq]

theorem Host.Same.setter?_eq {h h' : Host} (hs : h.Same named h') (hn : ¬ named (.text "set"))
    (owner : Nat) : h'.setter? owner = h.setter? owner := by
  unfold Host.setter?
  rw [hs.style_eq]
  cases h.style with
  | mapping => rfl
  | object label getters => simp only [hs.look_eq hn owner label getters]

theorem Host.Same.code?_eq {h h' : Host} (hs : h.Same named h') (c : Callable) :
    h'.code? c = h.code? c := by
  unfold Host.code?
  rw [hs.methods_eq, hs.callables_eq]

theorem Bindings.Same.getElem?_eq_none {b b' : Bindings} (hs : b.Same named b') {i : Nat}
    (hi : b.hosts[i]? = none) : b'.hosts[i]? = none := by
  rw [List.getElem?_eq_none_iff] at hi ⊢
  rwa [hs.length_eq]

theorem Bindings.Same.exists_host {b b' : Bindings} (hs : b.Same named b') {i : Nat} {h' : Host}
    (hi : b'.hosts[i]? = some h') : ∃ h, b.hosts[i]? = some h ∧ h.Same named h' := by
  cases hb : b.hosts[i]? with
  | none =>
    rw [hs.getElem?_eq_none hb] at hi
    cases hi
  | some h =>
    obtain ⟨k, hk, hsame⟩ := hs.hosts i h hb
    obtain rfl : k = h' := Option.some.inj (hk.symm.trans hi)
    exact ⟨h, rfl, hsame⟩

theorem Bindings.Same.code?_eq {b b' : Bindings} (hs : b.Same named b') (c : Callable) :
    b'.code? c = b.code? c := by
  unfold Bindings.code?
  cases hb : b.hosts[c.owner]? with
  | none => rw [hs.getElem?_eq_none hb]
  | some h =>
    obtain ⟨h', hi, hsame⟩ := hs.hosts c.owner h hb
    rw [hi]
    exact hsame.code?_eq c

end

namespace Play

/-! ## Changes -/

/-- What a write has done to the bound states: it stored a value under the name, or it
failed and stored nothing. -/
def Written {α : Type} (name : Value) (b : Bindings) : Except Fault α → Bindings → Prop
  | .ok _, b' => b.Stores name b'
  | .error _, b' => b' = b

/-- Every setter of a bound state stores a value under the name it is given, or fails
and leaves all states as they were. -/
def WritesWhole (b : Bindings) : Prop :=
  ∀ (s : Session) (i : Nat) (h : Host) (c : Callable) (name value : Value)
    (r : Except Fault Value) (t : Session), s.bindings = b → b.hosts[i]? = some h →
    h.setter? i = .ok (some c) → (invoke refused c [name, value] s).finish = some (r, t) →
      Written name b r t.bindings

/-- What a change has done to the bound states: at most one write under the name, and
nothing if it failed. -/
def Outcome (name : Value) (b : Bindings) : Except Fault Unit → Bindings → Prop
  | .ok _, b' => b' = b ∨ b.Stores name b'
  | .error _, b' => b' = b

def Keeps {α : Type} (x : Play α) : Prop :=
  ∀ s r t, (x s).finish = some (r, t) → t.bindings = s.bindings

/-- A run that writes under the name once, or fails and writes nothing. -/
def AllOrNothing (name : Value) (x : Play Unit) : Prop :=
  ∀ s r t, WritesWhole s.bindings → (x s).finish = some (r, t) →
    Outcome name s.bindings r t.bindings

variable {name : Value}

theorem AllOrNothing.bind {α : Type} {x : Play α} {f : α → Play Unit} (hx : Keeps x)
    (hf : ∀ a, AllOrNothing name (f a)) : AllOrNothing name (x >>= f) := by
  intro s r t hw h
  rcases Act.finish_bind_eq_some h with ⟨a, u, hu, ht⟩ | ⟨e, he, rfl⟩
  · have hsame := hx s _ u hu
    rw [← hsame] at hw ⊢
    exact hf a u r t hw ht
  · exact hx s _ t he

theorem ok_of_finish_reading {α : Type} {f : Bindings → Except Fault α} {s t : Session} {a : α}
    (h : (reading f s).finish = some (.ok a, t)) : t = s ∧ f s.bindings = .ok a := by
  cases hf : f s.bindings with
  | ok b =>
    rw [reading_of_ok hf] at h
    cases h
    exact ⟨rfl, rfl⟩
  | error e =>
    rw [reading_of_error hf] at h
    cases h

end Play

/-! ## Setters that store -/

namespace Play

end Play
end Parley
