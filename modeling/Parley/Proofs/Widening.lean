import Mathlib.Data.List.Basic
import Parley.Proofs.Change
import Parley.Proofs.Write

/-
More states, and leniency.

A run that succeeds in strict mode has found every name it used in one of its
states.  States that are asked after these are then never asked, and neither the
shadow nor a default is ever read: with more states, in either mode and with any
shadow, the run takes the same course and leaves what was added alone.

`Lasts` is this relation between a run and the run it is compared with.  Scripts keep
it (`scripted_lasts`) although it does not hold of single reads, such as asking for
the owner of a name: only where none is found may the two sides differ, and there the
strict side fails.
-/

namespace Parley

/-- What is added to bound states: more states that are asked after the others, and
the mode and the shadow that take the place of theirs. -/
structure Widening where
  hosts : List Host := []
  active : List Nat := []
  shadow : Table := []
  strict : Bool := true

def Bindings.widen (w : Widening) (b : Bindings) : Bindings where
  hosts := b.hosts ++ w.hosts
  active := b.active ++ w.active
  shadow := w.shadow
  strict := w.strict

def Session.widen (w : Widening) (s : Session) : Session :=
  { s with bindings := s.bindings.widen w }

/-- States that follow `places` others. -/
def Widening.following (places : Nat) (hosts : List Host) (shadow : Table) (strict : Bool) :
    Widening where
  hosts := hosts
  active := (List.range hosts.length).map (places + ·)
  shadow := shadow
  strict := strict

/-- Where all states are asked, so they are with others that follow them. -/
theorem Bindings.widen_following (hosts hosts' : List Host) (shadow shadow' : Table)
    (strict strict' : Bool) :
    Bindings.widen (.following hosts.length hosts' shadow' strict')
        { hosts := hosts, active := List.range hosts.length, shadow := shadow, strict := strict } =
      { hosts := hosts ++ hosts', active := List.range (hosts ++ hosts').length,
        shadow := shadow', strict := strict' } := by
  simp [Bindings.widen, Widening.following, List.range_add]

/-- Code that makes no requests. -/
inductive Routine.Quiet : Routine → Prop
  | give (v : Value) : Quiet (.give v)
  | fail (f : Fault) : Quiet (.fail f)
  | note {e : Remark} {next : Routine} : Quiet next → Quiet (.note e next)
  | read {property : String} {next : Value → Routine} :
    (∀ v, Quiet (next v)) → Quiet (.read property next)
  | write {name value : Value} {next : Routine} : Quiet next → Quiet (.write name value next)
  | keep {value : Value} {next : Value → Routine} :
    (∀ v, Quiet (next v)) → Quiet (.keep value next)
  | pause {next : Routine} : Quiet next → Quiet (.pause next)

/-- Strict mode, where every place that is asked is a state's and no code of a state
makes requests. -/
structure Bindings.Firm (b : Bindings) : Prop where
  strict : b.strict = true
  placed : ∀ i ∈ b.active, i < b.hosts.length
  quiet : ∀ c code, b.code? c = some code → ∀ args, (code args).Quiet

theorem Bindings.Firm.of_same {named : Value → Prop} {b b' : Bindings} (h : b.Firm)
    (hs : b.Same named b') : b'.Firm where
  strict := by rw [hs.strict_eq, h.strict]
  placed := by rw [hs.active_eq, hs.length_eq]; exact h.placed
  quiet c code hc := h.quiet c code (by rw [← hs.code?_eq, hc])

/-! ## Looking names up -/

namespace Bindings

variable (w : Widening) {b : Bindings}

theorem getElem?_widen {i : Nat} (hi : i < b.hosts.length) :
    (b.widen w).hosts[i]? = b.hosts[i]? :=
  List.getElem?_append_left hi

theorem lt_of_getElem? {i : Nat} {h : Host} (hi : b.hosts[i]? = some h) : i < b.hosts.length :=
  (List.getElem?_eq_some_iff.mp hi).1

theorem providers_widen (hb : b.Firm) : ∃ more, (b.widen w).providers = b.providers ++ more := by
  refine ⟨w.active.filterMap fun i => (b.widen w).hosts[i]?.map fun h => (i, h), ?_⟩
  simp only [providers]
  rw [show (b.widen w).active = b.active ++ w.active from rfl, List.filterMap_append]
  congr 1
  exact List.filterMap_congr fun i hi => by rw [getElem?_widen w (hb.placed i hi)]

theorem firstM_append {test : Nat → Host → Except Fault Bool} {l : List (Nat × Host)} {i : Nat}
    (h : firstM test l = .ok (some i)) (more : List (Nat × Host)) :
    firstM test (l ++ more) = .ok (some i) := by
  induction l with
  | nil => cases h
  | cons p rest ih =>
    obtain ⟨j, k⟩ := p
    simp only [List.cons_append, firstM] at h ⊢
    split at h
    · cases h
    · exact h
    · exact ih h

/-- The first state to pass a test is still the first among more states. -/
theorem firstM_widen (hb : b.Firm) {test : Nat → Host → Except Fault Bool} {i : Nat}
    (h : firstM test b.providers = .ok (some i)) :
    firstM test (b.widen w).providers = .ok (some i) ∧ i < b.hosts.length := by
  obtain ⟨more, hmore⟩ := providers_widen w hb
  refine ⟨by rw [hmore]; exact firstM_append h more, ?_⟩
  obtain ⟨k, hk, -⟩ := exists_of_firstM h
  exact lt_of_getElem? (mem_providers.mp hk).2

theorem propertyAt_widen {i : Nat} (hi : i < b.hosts.length) (name : Value) :
    (b.widen w).propertyAt i name = b.propertyAt i name := by
  simp only [propertyAt, getElem?_widen w hi]

theorem code?_widen {c : Callable} {code : Code} (h : b.code? c = some code) :
    (b.widen w).code? c = some code ∧ c.owner < b.hosts.length := by
  obtain ⟨k, hk, -⟩ := Option.bind_eq_some_iff.mp h
  have hi := lt_of_getElem? hk
  exact ⟨by rw [code?, getElem?_widen w hi]; exact h, hi⟩

theorem writeAt_widen {i : Nat} (hi : i < b.hosts.length) {name value : Value} {b' : Bindings}
    (h : b.writeAt i name value = .ok b') :
    (b.widen w).writeAt i name value = .ok (b'.widen w) := by
  unfold writeAt at h ⊢
  rw [getElem?_widen w hi]
  split at h
  · next k hk =>
    cases hw : k.write name value with
    | error e =>
      rw [hw] at h
      cases h
    | ok k' =>
      rw [hw] at h
      cases h
      simp [Except.map, widen, List.set_append_left _ _ hi]
  · next hk =>
    rw [List.getElem?_eq_none_iff] at hk
    omega

end Bindings

/-! ## Values of tokens -/

theorem Token.fold_of_imp {combine combine' : Operator → Value → Value → Except Fault Value}
    (hc : ∀ op l r v, combine op l r = .ok v → combine' op l r = .ok v) {ops : List Operator}
    {out ts us : List Token} (h : fold combine ops out ts = .ok us) :
    fold combine' ops out ts = .ok us := by
  fun_induction fold combine ops out ts with
  | case1 out => simpa [fold] using h
  | case2 out t ts hop ih => simpa [fold, hop] using ih h
  | case3 => cases h
  | case4 t op hop l out r ts hno v hv ih =>
    rw [fold]
    simp only [hop, hno, hc _ _ _ _ hv]
    exact ih h
  | case5 => cases h
  | case6 => cases h

namespace Bindings

/-- What the one read gives in strict mode the other gives in widened states. -/
def Stable (w : Widening) {α : Type} (f f' : Bindings → Except Fault α) : Prop :=
  ∀ b a, b.Firm → f b = .ok a → f' (b.widen w) = .ok a

variable {w : Widening}

theorem stable_const {α : Type} (x : Except Fault α) : Stable w (fun _ => x) fun _ => x :=
  fun _ _ _ h => h

theorem Stable.bind {α β : Type} {f f' : Bindings → Except Fault α}
    {g g' : α → Bindings → Except Fault β} (hf : Stable w f f') (hg : ∀ a, Stable w (g a) (g' a)) :
    Stable w (fun b => f b >>= fun a => g a b) fun b => f' b >>= fun a => g' a b := by
  intro b c hb h
  cases hfb : f b with
  | error e =>
    simp only [hfb] at h
    cases h
  | ok a =>
    simp only [hfb] at h
    simp only [hf b a hb hfb]
    exact hg a b c hb h

/-- A name that strict mode finds is found in widened states, whatever default would
have suited it. -/
theorem stable_lookup (hint hint' : Hint) (name : String) :
    Stable w (·.lookup hint name) (·.lookup hint' name) := by
  intro b v hb h
  simp only [lookup] at h ⊢
  split at h
  · cases h
  · next i hi =>
    obtain ⟨hi', hlt⟩ := firstM_widen w hb hi
    simp only [show (b.widen w).owner? (.text name) = .ok (some i) from hi',
      propertyAt_widen w hlt]
    exact h
  · rw [if_pos hb.strict] at h
    cases h

theorem stable_valueOf (hint hint' : Hint) (v : Value) :
    Stable w (·.valueOf hint v) (·.valueOf hint' v) := by
  cases v with
  | text s =>
    simp only [valueOf]
    cases Literal.read? s with
    | some r => exact stable_const r
    | none => exact stable_lookup hint hint' s
  | _ => exact stable_const _

theorem stable_valuesOf (args : List Value) : Stable w (·.valuesOf args) (·.valuesOf args) := by
  induction args with
  | nil => exact stable_const (.ok [])
  | cons t ts ih =>
    exact (stable_valueOf .boolean .boolean t).bind fun v => ih.bind fun vs =>
      stable_const (pure (v :: vs))

theorem stable_total (hint hint' : Hint) (ts : List Token) :
    Stable w (·.total hint ts) (·.total hint' ts) := by
  have hcombine (op : Operator) (l r : Value) :
      Stable w (·.combine hint op l r) (·.combine hint' op l r) :=
    (stable_valueOf hint hint' l).bind fun x => (stable_valueOf hint hint' r).bind fun y =>
      (stable_const (Value.apply op x y)).bind fun z => stable_const (pure z.quote)
  have hfold (ops : List Operator) (ts : List Token) :
      Stable w (fun b => Token.fold (b.combine hint) ops [] ts)
        fun b => Token.fold (b.combine hint') ops [] ts :=
    fun b _ hb => Token.fold_of_imp fun op l r v => hcombine op l r b v hb
  refine (hfold _ ts).bind fun ts => (hfold _ ts).bind fun ts => ?_
  split
  · next t =>
    cases t.value with
    | some v => exact stable_valueOf hint hint' v
    | none => exact stable_const _
  · exact stable_const _

section

variable (hint hint' : Hint)

mutual

/-- The value that strict mode gives to a scalar is its value in widened states,
whatever the two hints are. -/
theorem stable_resolve (v : Value) : Stable w (·.resolve hint v) (·.resolve hint' v) := by
  cases v with
  | list ts => exact stable_resolveTokens ts
  | tuple ts => exact stable_resolveTokens ts
  | _ =>
    simp only [resolve]
    exact stable_valueOf hint hint' _
  termination_by structural v

theorem stable_resolveTokens (ts : List Value) :
    Stable w (·.resolveTokens hint ts) (·.resolveTokens hint' ts) := by
  cases ts with
  | nil => exact stable_const _
  | cons t ts =>
    exact (stable_reduce t).bind fun first => (stable_reduceAll ts).bind fun rest =>
      stable_total hint hint' (first :: rest)
  termination_by structural ts

theorem stable_reduce (v : Value) : Stable w (·.reduce hint v) (·.reduce hint' v) := by
  cases v with
  | dict es =>
    intro b t hb h
    have hentry := stable_resolveEntry es b
    simp only [reduce] at h ⊢
    split at h
    · next hg =>
      rw [if_pos hg]
      split at h
      · next v hv => simpa only [hentry v hb hv] using h
      · cases h
    · next hg => rwa [if_neg hg]
  | _ => exact stable_const _
  termination_by structural v

theorem stable_reduceAll (ts : List Value) :
    Stable w (·.reduceAll hint ts) (·.reduceAll hint' ts) := by
  cases ts with
  | nil => exact stable_const _
  | cons t ts =>
    exact (stable_reduce t).bind fun first => (stable_reduceAll ts).bind fun rest =>
      stable_const (pure (first :: rest))
  termination_by structural ts

theorem stable_resolveEntry (es : List (Value × Value)) :
    Stable w (·.resolveEntry hint es) (·.resolveEntry hint' es) := by
  cases es with
  | nil => exact stable_valueOf hint hint' .null
  | cons e rest =>
    obtain ⟨k, v⟩ := e
    simp only [resolveEntry]
    cases Token.isKey "value" k with
    | true => exact stable_resolve v
    | false => exact stable_resolveEntry rest
  termination_by structural es

end

end

end Bindings

/-! ## Runs -/

namespace Play

/-- What the one run gives from a session the other gives from the widened session, and
leaves the widened form of what the one leaves.  The states keep their places, their
code and the mode. -/
def LastsAt (w : Widening) (s : Session) {α : Type} (x x' : Play α) : Prop :=
  ∀ a t, (x s).finish = some (.ok a, t) →
    (x' (s.widen w)).finish = some (.ok a, t.widen w) ∧
      s.bindings.Same (fun _ => True) t.bindings

/-- What the one run gives in strict mode the other gives in any widened session. -/
def Lasts (w : Widening) ⦃α : Type⦄ (x x' : Play α) : Prop :=
  ∀ s, s.bindings.Firm → LastsAt w s x x'

section

variable {w : Widening} {s : Session} {α β : Type}

theorem LastsAt.bind {x x' : Play α} {f f' : α → Play β} (hx : LastsAt w s x x')
    (hf : ∀ a t, (x s).finish = some (.ok a, t) → s.bindings.Same (fun _ => True) t.bindings →
      LastsAt w t (f a) (f' a)) : LastsAt w s (x >>= f) (x' >>= f') := by
  intro b t h
  rcases Act.finish_bind_eq_some h with ⟨a, u, hu, ht⟩ | ⟨e, -, he⟩
  · obtain ⟨hwide, hsame⟩ := hx a u hu
    obtain ⟨hwide', hsame'⟩ := hf a u hu hsame b t ht
    refine ⟨?_, hsame.trans hsame'⟩
    rw [Act.finish_bind, hwide]
    exact hwide'
  · cases he

theorem Lasts.bind {x x' : Play α} {f f' : α → Play β} (hx : Lasts w x x')
    (hf : ∀ a, Lasts w (f a) (f' a)) : Lasts w (x >>= f) (x' >>= f') := fun s hs =>
  (hx s hs).bind fun a t _ hsame => hf a t (hs.of_same hsame)

/-- A read that gives the same in both sessions, as long as what follows it lasts. -/
theorem LastsAt.reading_bind {f f' : Bindings → Except Fault α} {g g' : α → Play β}
    (h : ∀ a, f s.bindings = .ok a →
      f' (s.bindings.widen w) = .ok a ∧ LastsAt w s (g a) (g' a)) :
    LastsAt w s (reading f >>= g) (reading f' >>= g') := by
  intro b t hx
  cases hf : f s.bindings with
  | error e =>
    rw [Act.bind_of_failed (reading_of_error hf)] at hx
    cases hx
  | ok a =>
    obtain ⟨hf', hg⟩ := h a hf
    rw [Act.bind_of_done (reading_of_ok hf)] at hx
    rw [Act.bind_of_done (reading_of_ok (s := s.widen w) hf')]
    exact hg b t hx

theorem lasts_reading {f f' : Bindings → Except Fault α} (hf : Bindings.Stable w f f') :
    Lasts w (reading f) (reading f') := by
  intro s hs a t h
  obtain ⟨rfl, ha⟩ := ok_of_finish_reading h
  rw [reading_of_ok (s := t.widen w) (hf _ _ hs ha)]
  exact ⟨rfl, Bindings.Same.refl _ _⟩

/-- A run that never succeeds in strict mode. -/
theorem lastsAt_of_failed {x x' : Play α} (h : ∀ a t, (x s).finish ≠ some (.ok a, t)) :
    LastsAt w s x x' := fun a t hx => absurd hx (h a t)

theorem lastsAt_writeAt {i : Nat} (hi : i < s.bindings.hosts.length) (name value : Value) :
    LastsAt w s (writing fun b => b.writeAt i name value)
      (writing fun b => b.writeAt i name value) := by
  intro a t h
  rcases writing_cases (fun b => b.writeAt i name value) s with ⟨b, hb, hrun⟩ | ⟨e, -, hrun⟩
  · rw [hrun] at h
    cases h
    rw [writing_of_ok (s := s.widen w) (f := fun b => b.writeAt i name value)
      (Bindings.writeAt_widen w hi hb)]
    exact ⟨rfl, (Bindings.Stores.same (.inl ⟨i, value, hb⟩)).mono fun _ _ => trivial⟩
  · rw [hrun] at h
    cases h

end

/-! ## Host methods -/

section

variable {w : Widening} (ask ask' : Ask)

theorem lasts_note (e : Entry) : Lasts w (note e) (note e) := by
  intro s _ a t h
  cases h
  exact ⟨rfl, Bindings.Same.refl _ _⟩

theorem lasts_pause : Lasts w Act.pause Act.pause := by
  intro s _ a t h
  cases h
  exact ⟨rfl, Bindings.Same.refl _ _⟩

theorem lasts_keep (v : Value) : Lasts w (keep v) (keep v) := by
  cases v with
  | float x =>
    intro s _ a t h
    rw [keep_float] at h ⊢
    split at h
    · next hx =>
      cases h
      rw [if_pos hx]
      exact ⟨rfl, Bindings.Same.refl _ _⟩
    · next hx =>
      cases h
      rw [if_neg hx]
      exact ⟨rfl, Bindings.Same.refl _ _⟩
  | _ => exact lasts_reading (Bindings.stable_const (.ok _))

/-- Code that makes no requests runs alike, since its state is at the same place. -/
theorem lastsAt_routine {owner : Nat} {code : Routine} (hq : code.Quiet) {s : Session}
    (hs : s.bindings.Firm) (ho : owner < s.bindings.hosts.length) :
    LastsAt w s (routine ask owner code) (routine ask' owner code) := by
  induction hq generalizing s with
  | give v => exact lasts_reading (Bindings.stable_const (.ok v)) s hs
  | fail f => exact lasts_reading (Bindings.stable_const (.error f)) s hs
  | note _ ih =>
    exact (lasts_note _ s hs).bind fun _ _ _ hsame =>
      ih (hs.of_same hsame) (hsame.length_eq ▸ ho)
  | @read property next _ ih =>
    refine LastsAt.reading_bind fun v hv => ⟨?_, ih v hs ho⟩
    rw [Bindings.propertyAt_widen w ho]
    exact hv
  | write _ ih =>
    exact (lastsAt_writeAt ho _ _).bind fun _ _ _ hsame =>
      ih (hs.of_same hsame) (hsame.length_eq ▸ ho)
  | keep _ ih =>
    exact (lasts_keep _ s hs).bind fun v _ _ hsame =>
      ih v (hs.of_same hsame) (hsame.length_eq ▸ ho)
  | pause _ ih =>
    exact (lasts_pause s hs).bind fun _ _ _ hsame =>
      ih (hs.of_same hsame) (hsame.length_eq ▸ ho)

theorem lasts_invoke (c : Callable) (args : List Value) :
    Lasts w (invoke ask c args) (invoke ask' c args) := by
  intro s hs
  cases hc : s.bindings.code? c with
  | none =>
    refine lastsAt_of_failed fun a t h => ?_
    rw [invoke, Act.bind_of_done (reading_of_ok (f := fun b => .ok (b.code? c)) rfl), hc] at h
    cases h
  | some code =>
    obtain ⟨hc', ho⟩ := Bindings.code?_widen w hc
    refine LastsAt.reading_bind fun code' hcode => ?_
    cases hc.symm.trans (Except.ok.inj hcode)
    exact ⟨congrArg Except.ok hc', lastsAt_routine ask ask' (hs.quiet c code hc args) hs ho⟩

theorem lastsAt_callAt {s : Session} (hs : s.bindings.Firm) {i : Nat}
    (hi : i < s.bindings.hosts.length) (name : Value) (args : List Value) :
    LastsAt w s (callAt ask i name args) (callAt ask' i name args) :=
  LastsAt.reading_bind fun c hc =>
    ⟨by rw [Bindings.getElem?_widen w hi]; exact hc, lasts_invoke ask ask' c args s hs⟩

/-- Naming a name in a fault never succeeds. -/
theorem failNaming_ne_ok {α : Type} (fault : String → Fault) (name : Value) (s : Session)
    (a : α) (t : Session) : (failNaming fault name s).finish ≠ some (.ok a, t) := by
  unfold failNaming
  cases hn : name.plain with
  | error e => exact fun h => by cases h
  | ok text => exact fun h => by cases h

theorem callUnknown_ne_ok {s : Session} (hs : s.bindings.strict = true) (name : Value)
    (v : Value) (t : Session) : (callUnknown name s).finish ≠ some (.ok v, t) := by
  rw [callUnknown, Act.bind_of_done (reading_of_ok (f := fun b => .ok b.strict) rfl), hs]
  exact failNaming_ne_ok _ name s v t

theorem setUnknown_ne_ok {s : Session} (hs : s.bindings.strict = true) (name value : Value)
    (t : Session) : (setUnknown name value s).finish ≠ some (.ok (), t) := by
  rw [setUnknown, Act.bind_of_done (reading_of_ok (f := fun b => .ok b.strict) rfl), hs]
  exact failNaming_ne_ok _ name s () t

/-- Where strict mode needs an owner, it is the same in both sessions. -/
theorem LastsAt.owner_bind {s : Session} (hs : s.bindings.Firm) {α : Type}
    {test : Nat → Host → Except Fault Bool} {g g' : Option Nat → Play α}
    (hnone : ∀ a t, (g none s).finish ≠ some (.ok a, t))
    (hsome : ∀ i, i < s.bindings.hosts.length → LastsAt w s (g (some i)) (g' (some i))) :
    LastsAt w s (reading (fun b => Bindings.firstM test b.providers) >>= g)
      (reading (fun b => Bindings.firstM test b.providers) >>= g') := by
  cases ho : Bindings.firstM test s.bindings.providers with
  | error e =>
    refine lastsAt_of_failed fun a t h => ?_
    rw [Act.bind_of_failed
      (reading_of_error (f := fun b => Bindings.firstM test b.providers) ho)] at h
    cases h
  | ok owner =>
    cases owner with
    | none =>
      refine lastsAt_of_failed fun a t h => hnone a t ?_
      rwa [Act.bind_of_done
        (reading_of_ok (f := fun b => Bindings.firstM test b.providers) ho)] at h
    | some i =>
      obtain ⟨ho', hi⟩ := Bindings.firstM_widen w hs ho
      refine LastsAt.reading_bind fun owner h => ?_
      cases ho.symm.trans h
      exact ⟨ho', hsome i hi⟩

theorem lasts_function (name : Value) (args : List Value) :
    Lasts w (function ask name args) (function ask' name args) := by
  intro s hs
  refine LastsAt.reading_bind fun values hv =>
    ⟨Bindings.stable_valuesOf args _ _ hs hv, ?_⟩
  exact LastsAt.owner_bind hs (callUnknown_ne_ok hs.strict name) fun i hi =>
    lastsAt_callAt ask ask' hs hi name values

theorem lastsAt_setAt {s : Session} (hs : s.bindings.Firm) {i : Nat}
    (hi : i < s.bindings.hosts.length) (name value : Value) :
    LastsAt w s (setAt ask i name value) (setAt ask' i name value) := by
  refine LastsAt.reading_bind fun setter hset =>
    ⟨by rw [Bindings.getElem?_widen w hi]; exact hset, ?_⟩
  cases setter with
  | some c =>
    exact (lasts_invoke ask ask' c _ s hs).bind fun _ _ _ hsame =>
      lasts_reading (Bindings.stable_const (.ok ())) _ (hs.of_same hsame)
  | none => exact lastsAt_writeAt hi name value

theorem lasts_set (name value : Value) :
    Lasts w (set ask name value) (set ask' name value) := by
  intro s hs
  exact LastsAt.owner_bind hs (fun _ => setUnknown_ne_ok hs.strict name value) fun i hi =>
    lastsAt_setAt ask ask' hs hi name value

/-- Scripts last. -/
theorem scripted_lasts : Scripted (Lasts w) ask ask' where
  bind := Lasts.bind
  ofExcept {_ x} _ := lasts_reading (Bindings.stable_const x)
  note _ := lasts_note _
  pause := lasts_pause
  keep := lasts_keep
  valueOf hint v := lasts_reading (Bindings.stable_valueOf hint hint v)
  valuesOf args := lasts_reading (Bindings.stable_valuesOf args)
  resolve hint v := lasts_reading (Bindings.stable_resolve hint hint v)
  function := lasts_function ask ask'
  set := lasts_set ask ask'

end

/-! ## Walks -/

section

variable {w : Widening}

/-- A signal is announced alike whatever the bound states are. -/
theorem announce_cases_of_bindings (g : Signal) (s : Session) :
    (∀ b, announce g { s with bindings := b } = .exhausted) ∨ ∃ bus es, ∀ b,
      announce g { s with bindings := b } =
        .done () { s with bindings := b, bus := bus, trace := s.trace ++ es } := by
  have hreact (b : Bindings) : ({ s with bindings := b } : Session).react = s.react := rfl
  unfold announce
  simp only [hreact]
  cases (Bus.publish (fun _ => s.react) 1 g [] { bus := s.bus }).finish with
  | some r => exact .inr ⟨r.2.bus, r.2.history.flatMap (heard s.running), fun _ => rfl⟩
  | none => exact .inl fun _ => rfl

theorem setRunning_cases_of_bindings (value : Bool) (s : Session) :
    (∀ b, setRunning value { s with bindings := b } = .exhausted) ∨ ∃ bus es, ∀ b,
      setRunning value { s with bindings := b } =
        .done ()
          { s with bindings := b, running := value, bus := bus, trace := s.trace ++ es } := by
  unfold setRunning
  by_cases hv : s.running = value
  · refine .inr ⟨s.bus, [], fun b => ?_⟩
    simp [← hv]
  · simp only [beq_iff_eq, hv, if_false]
    exact announce_cases_of_bindings _ { s with running := value }

theorem lasts_setRunning (value : Bool) : Lasts w (setRunning value) (setRunning value) := by
  intro s _ a t h
  rcases setRunning_cases_of_bindings value s with hx | ⟨bus, es, hx⟩
  · have hs : setRunning value s = .exhausted := hx s.bindings
    rw [hs] at h
    cases h
  · have hs : setRunning value s = _ := hx s.bindings
    have hw : setRunning value (s.widen w) = _ := hx (s.bindings.widen w)
    rw [hs] at h
    cases h
    rw [hw]
    exact ⟨rfl, Bindings.Same.refl _ _⟩

theorem lasts_walk (ask ask' : Ask) (r : Resource) (fuel : Nat) (key : String) :
    Lasts w (walk ask r fuel key) (walk ask' r fuel key) :=
  (scripted_lasts ask ask').walk lasts_setRunning (fun _ _ _ _ h => by cases h) r fuel key

theorem lasts_admitted (document : Option Resource) :
    Lasts w (admitted document) (admitted document) := by
  intro s _ r t h
  cases hd : document <|> s.default with
  | none =>
    rw [admitted_of_none hd] at h
    cases h
  | some doc =>
    cases hp : s.pending with
    | true =>
      rw [admitted_of_pending hp] at h
      cases h
    | false =>
      rw [admitted_of_free hp hd] at h
      cases h
      rw [admitted_of_free (s := s.widen w) hp hd]
      exact ⟨rfl, Bindings.Same.refl _ _⟩

theorem lasts_guarded {α : Type} {x x' : Play α} (hx : Lasts w x x') :
    Lasts w (guarded x) (guarded x') := by
  intro s hs a t h
  rw [finish_guarded, Option.map_eq_some_iff] at h
  obtain ⟨⟨o, u⟩, hu, he⟩ := h
  cases he
  obtain ⟨hwide, hsame⟩ := hx { s with pending := true } hs a u hu
  refine ⟨?_, hsame⟩
  have hheld : (x' { s.widen w with pending := true }).finish = some (.ok a, u.widen w) := hwide
  rw [finish_guarded, hheld]
  rfl

theorem lasts_seek (ask ask' : Ask) (fuel : Nat) (document : Option Resource) (key : String) :
    Lasts w (seek ask fuel document key) (seek ask' fuel document key) :=
  (lasts_admitted document).bind fun r => lasts_guarded (lasts_walk ask ask' r fuel key)

theorem lasts_next (fuel nesting : Nat) (document : Option Resource) (key : String) :
    Lasts w (next fuel nesting document key) (next fuel nesting document key) := by
  cases nesting with
  | zero => exact (lasts_admitted document).bind fun _ _ _ _ _ h => by cases h
  | succ nesting => exact lasts_seek _ _ fuel document key

end

/-- What a session in strict mode gives and does, widened sessions give and do. -/
structure Lasting (w : Widening) (fuel nesting : Nat) (s : Session) : Prop where
  next (document : Option Resource) (key : String) :
    LastsAt w s (next fuel nesting document key) (next fuel nesting document key)
  check (e : Option Expression) :
    LastsAt w s (check (answer fuel nesting) e) (check (answer fuel nesting) e)
  mutate (e : Option Expression) :
    LastsAt w s (mutate (answer fuel nesting) e) (mutate (answer fuel nesting) e)
  resolve (hint hint' : Hint) (v value : Value) :
    s.bindings.resolve hint v = .ok value → (s.widen w).bindings.resolve hint' v = .ok value

theorem lasting_of_firm {s : Session} (hs : s.bindings.Firm) (w : Widening) (fuel nesting : Nat) :
    Lasting w fuel nesting s where
  next document key := lasts_next fuel nesting document key s hs
  check e := (scripted_lasts _ _).check e s hs
  mutate e := (scripted_lasts _ _).mutate e s hs
  resolve hint hint' v value := Bindings.stable_resolve hint hint' v s.bindings value hs

/-- A line that greets by name, through a method of the state. -/
def greeting : Resource :=
  { lines :=
      [("1", { kind := .dialogue, text := "%1, %2!",
               replacements :=
                 [{ kind := .function, placeholder := "%1", function := some "greet" },
                  { placeholder := "%2", value := .text "name" }] })] }

/-- A state with a name and a method. -/
def greeter (word name : String) : Host :=
  { values := [(.text "name", .text name)],
    methods := [("greet", .routine fun args => .note (.call word args) (.give (.text word)))] }

def ann : Session := { bindings := { hosts := [greeter "Hello" "Ann"], active := [0] } }

/-- Another state of the same names, in lenient mode, with one more name in the shadow. -/
def crowd : Widening :=
  .following 1 [greeter "Bye" "Bob"] [(.text "name", .text "Cy")] false

theorem quiet_greeter {word name : String} {c : Callable} {code : Code}
    (h : (greeter word name).code? c = some code) (args : List Value) : (code args).Quiet := by
  rcases Host.mem_of_code? h with hm | hm
  · cases (Prod.mk.inj (List.mem_singleton.mp hm)).2
    exact .note (.give _)
  · exact nomatch hm

theorem firm_ann : ann.bindings.Firm where
  strict := rfl
  placed := by decide
  quiet c code hc := by
    obtain ⟨k, hk, hkc⟩ := Option.bind_eq_some_iff.mp hc
    obtain rfl : k = greeter "Hello" "Ann" := List.mem_singleton.mp (List.mem_of_getElem? hk)
    exact quiet_greeter hkc

theorem lasting_greeting :
    ann.bindings.Firm ∧ ∃ l t,
      (next 2 1 (some greeting) "1" ann).finish = some (.ok (some l), t) ∧
        l.dialogue = some "Hello, Ann!" ∧
        (next 2 1 (some greeting) "1" (ann.widen crowd)).finish =
          some (.ok (some l), t.widen crowd) := by
  have hshown : shown? (next 2 1 (some greeting) "1" ann).finish =
      some { dialogue := some "Hello, Ann!", character := some "" } := by
    decide +kernel
  obtain ⟨l, t, ht, hl⟩ := exists_of_shown? hshown
  have hlasts := (lasting_of_firm firm_ann crowd 2 1).next (some greeting) "1" (some l) t ht
  exact ⟨firm_ann, l, t, ht, by rw [hl], hlasts.1⟩

end Play
end Parley
