import Mathlib.Data.List.Induction
import Parley.Proofs.Decent
import Parley.Proofs.Running

/-
What the turns of a run keep to.

While a run pauses anything may happen to the session, its mode included, so what a run
does is said turn by turn.  A `Regime` says with which bound states turns begin, how one
turn may change them, and whether a run may fail for want of a name.  A run is `Tame` if
each of its turns keeps to the regime, provided that it begins as the regime demands.

A regime allows the two writes that scripts can make, and it excludes failure for want of
a name only in lenient mode among decent states.  So everything that reaches the bound
states by way of scripts is tame under every regime: requests (`tame_next`) and actions
that evaluate something (`tame_act_of_evaluates`).  What one turn keeps to is then what
moves keep to that share a session, in whatever order they take their turns
(`changes_played`, `guards_played`).
-/

namespace Parley

/-- What the turns of a run keep to. -/
structure Regime where
  /-- The bound states that turns begin with. -/
  Begins : Bindings → Prop
  /-- How a turn may change the bound states. -/
  Changes : Bindings → Bindings → Prop
  /-- Whether runs may fail for want of a name. -/
  misses : Bool
  refl : ∀ b, Changes b b
  trans : ∀ {b c d}, Changes b c → Changes c d → Changes b d
  kept : ∀ {b c}, Changes b c → Begins b → Begins c
  writeAt : ∀ {b c i name value}, b.writeAt i name value = .ok c → Changes b c
  writeShadow : ∀ {b c name value}, b.strict = false → b.writeShadow name value = .ok c →
    Changes b c
  /-- Where runs may not fail so, turns begin in lenient mode with decent states. -/
  sound : misses = false → ∀ {b}, Begins b → b.strict = false ∧ b.Decent

namespace Regime

/-- What holds of the bound states before a turn holds of them after it. -/
def keeping (I : Bindings → Prop) (misses : Bool)
    (writeAt : ∀ {b c i name value}, b.writeAt i name value = .ok c → I b → I c)
    (writeShadow : ∀ {b c name value}, b.strict = false → b.writeShadow name value = .ok c →
      I b → I c)
    (sound : misses = false → ∀ {b}, I b → b.strict = false ∧ b.Decent) : Regime where
  Begins := I
  Changes b c := I b → I c
  misses
  refl _ h := h
  trans h h' hb := h' (h hb)
  kept h := h
  writeAt
  writeShadow
  sound

variable (R : Regime)

def Excuses (f : Fault) : Prop := R.misses = false → f.isUnknownName = false

/-- A run whose turns keep to the regime. -/
inductive Tame {α : Type} : Session → Progress Session Fault α → Prop
  | done {s t : Session} {a : α} : R.Changes s.bindings t.bindings → Tame s (.done a t)
  | failed {s t : Session} {f : Fault} :
    R.Changes s.bindings t.bindings → R.Excuses f → Tame s (.failed f t)
  | paused {s t : Session} {k : Session → Progress Session Fault α} :
    R.Changes s.bindings t.bindings → (∀ u, R.Begins u.bindings → Tame u (k u)) →
      Tame s (.paused t k)
  | exhausted {s : Session} : Tame s .exhausted

/-- A run that is tame from every session on that turns begin with. -/
def Tames ⦃α : Type⦄ (x : Play α) : Prop := ∀ s, R.Begins s.bindings → R.Tame s (x s)

variable {R}

namespace Tame

variable {α β : Type} {s t : Session} {p : Progress Session Fault α}

theorem begin (hst : R.Changes s.bindings t.bindings) (h : R.Tame t p) : R.Tame s p := by
  cases h with
  | done h => exact .done (R.trans hst h)
  | failed h hf => exact .failed (R.trans hst h) hf
  | paused h hk => exact .paused (R.trans hst h) hk
  | exhausted => exact .exhausted

theorem bind {f : α → Session → Progress Session Fault β} (hs : R.Begins s.bindings)
    (h : R.Tame s p) (hf : ∀ a u, R.Begins u.bindings → R.Tame u (f a u)) :
    R.Tame s (p.bind f) := by
  induction h with
  | done h => exact begin h (hf _ _ (R.kept h hs))
  | failed h he => exact .failed h he
  | paused h _ ih => exact .paused h fun u hu => ih u hu hu
  | exhausted => exact .exhausted

/-- What is left to do after an attempt is told how the attempt ended. -/
theorem attempt_bind {f : Except Fault α → Session → Progress Session Fault β}
    (hs : R.Begins s.bindings) (h : R.Tame s p)
    (hf : ∀ r u, (R.misses = false → Known r) → R.Begins u.bindings → R.Tame u (f r u)) :
    R.Tame s (p.attempt.bind f) := by
  induction h with
  | done h => exact begin h (hf _ _ (fun _ => Known.ok _) (R.kept h hs))
  | failed h he => exact begin h (hf _ _ (fun hm => Known.error (he hm)) (R.kept h hs))
  | paused h _ ih => exact .paused h fun u hu => ih u hu hu
  | exhausted => exact .exhausted

theorem ensure {g : Session → Session} (hg : ∀ u, (g u).bindings = u.bindings)
    (h : R.Tame s p) : R.Tame s (p.ensure g) := by
  induction h with
  | done h => exact .done ((hg _).symm ▸ h)
  | failed h hf => exact .failed ((hg _).symm ▸ h) hf
  | paused h _ ih => exact .paused h ih
  | exhausted => exact .exhausted

theorem of_finish {r : Except Fault α} (hs : R.Begins s.bindings) (h : R.Tame s p)
    (hr : p.finish = some (r, t)) :
    R.Changes s.bindings t.bindings ∧ ∀ f, r = .error f → R.Excuses f := by
  induction h with
  | done h =>
    cases hr
    exact ⟨h, nofun⟩
  | failed h hf =>
    cases hr
    refine ⟨h, fun f he => ?_⟩
    cases he
    exact hf
  | paused h _ ih =>
    have hu := R.kept h hs
    obtain ⟨hchanges, hfault⟩ := ih _ hu hu hr
    exact ⟨R.trans h hchanges, hfault⟩
  | exhausted => cases hr

end Tame

open Play

/-! ## Steps of scripts -/

section

variable {α β : Type} {s : Session}

theorem Tames.bind {x : Play α} {f : α → Play β} (hx : R.Tames x) (hf : ∀ a, R.Tames (f a)) :
    R.Tames (x >>= f) := fun s hs => (hx s hs).bind hs hf

theorem tame_pure (a : α) : R.Tames (pure a : Play α) := fun _ _ => .done (R.refl _)

theorem tame_modify {f : Session → Session} (h : ∀ s, R.Changes s.bindings (f s).bindings) :
    R.Tames (Act.modify f : Play Unit) := fun s _ => .done (h s)

theorem tame_read {g : Session → Except Fault α}
    (hg : R.misses = false → ∀ s, s.bindings.strict = false → s.bindings.Decent → Known (g s)) :
    R.Tames (Act.read g) := by
  intro s hs
  cases hr : g s with
  | ok a =>
    rw [Act.read_of_ok hr]
    exact .done (R.refl _)
  | error f =>
    rw [Act.read_of_error hr]
    refine .failed (R.refl _) fun hm => ?_
    obtain ⟨hstrict, hdecent⟩ := R.sound hm hs
    exact hg hm s hstrict hdecent f hr

/-- Reads of the states may fail for want of a name in strict mode only. -/
theorem tame_reading {g : Bindings → Except Fault α}
    (hg : ∀ b, b.strict = false → b.Decent → Known (g b)) : R.Tames (reading g) :=
  tame_read fun _ s => hg s.bindings

/-- What follows a read begins in the same session, with what was read there. -/
theorem tame_reading_bind {g : Bindings → Except Fault α} {f : α → Play β}
    (hs : R.Begins s.bindings) (hg : ∀ b, b.strict = false → b.Decent → Known (g b))
    (hf : ∀ a, g s.bindings = .ok a → R.Tame s (f a s)) : R.Tame s ((reading g >>= f) s) := by
  have hread := tame_reading hg s hs
  cases hr : g s.bindings with
  | ok a =>
    rw [Act.bind_of_done (reading_of_ok hr)]
    exact hf a hr
  | error e =>
    rw [reading_of_error hr] at hread
    rw [Act.bind_of_failed (reading_of_error hr)]
    cases hread with
    | failed h he => exact .failed h he

theorem tame_ofExcept {x : Except Fault α} (hx : Known x) : R.Tames (Act.ofExcept x : Play α) :=
  tame_reading fun _ _ _ => hx

theorem tame_fail {f : Fault} (hf : R.Excuses f) : R.Tames (Act.fail f : Play α) :=
  fun _ _ => .failed (R.refl _) hf

theorem tame_writing {g : Bindings → Except Fault Bindings} (hknown : Known (g s.bindings))
    (hg : ∀ c, g s.bindings = .ok c → R.Changes s.bindings c) : R.Tame s (writing g s) := by
  rcases writing_cases g s with ⟨c, hc, hrun⟩ | ⟨f, hf, hrun⟩
  · rw [hrun]
    exact .done (hg c hc)
  · rw [hrun]
    exact .failed (R.refl _) fun _ => hknown f hf

theorem tame_writeAt (i : Nat) (name value : Value) :
    R.Tames (writing fun b => b.writeAt i name value) :=
  fun _ _ => tame_writing (Bindings.known_writeAt _ i name value) fun _ hc => R.writeAt hc

theorem tame_note (e : Entry) : R.Tames (note e) := tame_modify fun _ => R.refl _

theorem tame_pause : R.Tames Act.pause :=
  fun _ _ => .paused (R.refl _) fun _ _ => .done (R.refl _)

theorem tame_keep (v : Value) : R.Tames (keep v) := by
  intro s _
  obtain ⟨v', n, hkeep⟩ := exists_keep v s
  rw [hkeep]
  exact .done (R.refl _)

end

/-! ## Host methods and names -/

section

variable {ask : Ask} (hask : ∀ document key, R.Tames (ask document key))
include hask

theorem tame_routine (owner : Nat) {code : Routine} (hcode : R.misses = false → code.Decent) :
    R.Tames (routine ask owner code) := by
  -- what code does after a request depends on the answer, so decency must hold along it
  induction code with
  | give v => exact tame_pure v
  | fail f => exact tame_fail hcode
  | note e next ih => exact (tame_note _).bind fun _ => ih hcode
  | read name next ih =>
    exact (tame_reading fun _ _ hb => hb.known_propertyAt _ _).bind fun v =>
      ih v fun hm => hcode hm v
  | write name value next ih => exact (tame_writeAt _ _ _).bind fun _ => ih hcode
  | keep value next ih => exact (tame_keep value).bind fun v => ih v fun hm => hcode hm v
  | pause next ih => exact tame_pause.bind fun _ => ih hcode
  | request document key next ih =>
    intro s hs
    exact (hask document key s hs).attempt_bind hs fun answer u hanswer hu =>
      ih answer (fun hm => hcode hm answer (hanswer hm)) u hu

theorem tame_invoke (c : Callable) (args : List Value) : R.Tames (invoke ask c args) := by
  intro s hs
  refine tame_reading_bind hs (fun _ _ _ => Known.ok _) fun code hcode => ?_
  cases code with
  | some code =>
    refine tame_routine hask c.owner (fun hm => ?_) s hs
    exact (R.sound hm hs).2.code (Except.ok.inj hcode) args
  | none => exact tame_fail (fun _ => rfl) s hs

theorem tame_callAt (i : Nat) (name : Value) (args : List Value) :
    R.Tames (callAt ask i name args) :=
  Tames.bind
    (tame_reading fun _ _ hb => hb.known_at (fun _ hh => hh.known_callee i name)
      (Known.error (Host.isUnknownName_missingKey name)) i)
    fun c => tame_invoke hask c args

omit hask in
/-- In strict mode a run may say that it wants for a name. -/
theorem tame_failNaming {α : Type} {fault : String → Fault} {name : Value} {s : Session}
    (hs : R.Begins s.bindings) (hstrict : s.bindings.strict = true) :
    R.Tame s (failNaming fault name s : Progress Session Fault α) := by
  refine (tame_ofExcept (Value.known_plain name) s hs).bind hs fun shown u hu =>
    tame_fail (fun hm => ?_) u hu
  have hsound := (R.sound hm hs).1
  rw [hstrict] at hsound
  cases hsound

omit hask in
theorem tame_callUnknown (name : Value) : R.Tames (callUnknown name) := by
  intro s hs
  refine tame_reading_bind hs (fun _ _ _ => Known.ok _) fun strict hstrict => ?_
  cases strict with
  | true => exact tame_failNaming hs (Except.ok.inj hstrict)
  | false => exact tame_pure _ s hs

theorem tame_function (name : Value) (args : List Value) : R.Tames (function ask name args) := by
  refine (tame_reading fun _ hb hd => hd.known_valuesOf hb args).bind fun values =>
    (tame_reading fun _ _ hb => hb.known_methodOwner? name).bind fun owner => ?_
  cases owner with
  | some i => exact tame_callAt hask i name values
  | none => exact tame_callUnknown name

theorem tame_setAt (i : Nat) (name value : Value) : R.Tames (setAt ask i name value) := by
  refine (tame_reading fun _ _ hb => hb.known_at (fun _ hh => hh.known_setter? i)
    (Known.ok none) i).bind fun setter => ?_
  cases setter with
  | some c => exact (tame_invoke hask c _).bind fun _ => tame_pure ()
  | none => exact tame_writeAt i name value

omit hask in
theorem tame_setUnknown (name value : Value) : R.Tames (setUnknown name value) := by
  intro s hs
  refine tame_reading_bind hs (fun _ _ _ => Known.ok _) fun strict hstrict => ?_
  cases strict with
  | true => exact tame_failNaming hs (Except.ok.inj hstrict)
  | false =>
    exact tame_writing (g := fun b => b.writeShadow name value)
      (Bindings.known_writeShadow _ name value) fun _ hc =>
        R.writeShadow (Except.ok.inj hstrict) hc

theorem tame_set (name value : Value) : R.Tames (set ask name value) := by
  refine (tame_reading fun _ _ hb => hb.known_owner? name).bind fun owner => ?_
  cases owner with
  | some i => exact tame_setAt hask i name value
  | none => exact tame_setUnknown name value

theorem scripted_tames : Scripted (First R.Tames) ask ask where
  bind := Tames.bind
  ofExcept := tame_ofExcept
  note _ := tame_note _
  pause := tame_pause
  keep := tame_keep
  valueOf hint v := tame_reading fun _ hb hd => hd.known_valueOf hb hint v
  valuesOf args := tame_reading fun _ hb hd => hd.known_valuesOf hb args
  resolve hint v := tame_reading fun _ hb hd => hd.known_resolve hb hint v
  function := tame_function hask
  set := tame_set hask

end

/-! ## Requests and actions -/

theorem tame_setRunning (value : Bool) : R.Tames (setRunning value) := by
  intro s _
  rcases setRunning_cases value s with h | ⟨bus, es, h, -, -⟩
  · rw [h]
    exact .exhausted
  · rw [h]
    exact .done (R.refl _)

theorem tame_admitted (document : Option Resource) : R.Tames (admitted document) := by
  refine tame_read fun _ s _ _ => ?_
  split
  · exact Known.error rfl
  · split
    · exact Known.error rfl
    · exact Known.ok _

theorem Tames.guarded {α : Type} {x : Play α} (hx : R.Tames x) : R.Tames (guarded x) := by
  refine (tame_modify (f := fun s => { s with pending := true }) fun _ => R.refl _).bind
    fun _ s hs => ?_
  exact (hx s hs).ensure (g := fun s => { s with pending := false }) fun _ => rfl

theorem tame_next (fuel nesting : Nat) (document : Option Resource) (key : String) :
    R.Tames (next fuel nesting document key) := by
  induction nesting generalizing document key with
  | zero => exact (tame_admitted document).bind fun _ _ _ => .exhausted
  | succ nesting ih =>
    have hask (document : Option Resource) (key : String) :
        R.Tames (answer fuel nesting document key) :=
      (ih document key).bind fun _ => tame_pure _
    exact (tame_admitted document).bind fun r => Tames.guarded <|
      (scripted_tames hask).walk tame_setRunning (fun _ _ => .exhausted) r fuel key

theorem tame_answer (fuel nesting : Nat) (document : Option Resource) (key : String) :
    R.Tames (answer fuel nesting document key) :=
  (tame_next fuel nesting document key).bind fun _ => tame_pure _

theorem tame_act_of_evaluates (visits : Nat) (p : Playthrough) {a : Action}
    (ha : a.evaluates = true) : R.Tames (p.act visits a) :=
  (scripted_tames (tame_answer visits Playthrough.nestingLimit)).act (fun _ _ => .exhausted) p ha

/-- Where a run may fail for want of a name, any read will do. -/
theorem congruence_tames (hR : R.misses = true) : Congruence (First R.Tames) where
  bind := Tames.bind
  read _ := tame_read fun hm => nomatch hm.symm.trans hR
  writeAt := tame_writeAt
  setUnknown := tame_setUnknown
  note _ := tame_note _
  pause := tame_pause
  keep := tame_keep

theorem tame_act (hR : R.misses = true) (visits : Nat) (p : Playthrough) (a : Action)
    (hadjust : ∀ f, a.Adjusts f → ∀ s, R.Changes s.bindings (f s).bindings) :
    R.Tames (p.act visits a) :=
  (congruence_tames hR).act
    (fun c args => tame_invoke (tame_answer visits Playthrough.nestingLimit) c args)
    (fun _ _ => .exhausted) p a fun f hf => tame_modify (hadjust f hf)

end Regime

/-! ## Moves that share a session -/

namespace Move

/-- Whether a move is a request or evaluates something. -/
def evaluates : Move → Bool
  | .next _ _ => true
  | .act a => a.evaluates
  | .adjust _ => false

/-- The changes that a move makes to a session by itself. -/
def Adjusts : Move → (Session → Session) → Prop
  | .next _ _, _ => False
  | .act a, f => a.Adjusts f
  | .adjust g, f => f = fun s => { s with bindings := g s.bindings }

end Move

namespace Regime

open Move

variable {R : Regime} {visits : Nat} {p : Playthrough} {m : Move}

theorem tame_run_of_evaluates (hm : m.evaluates = true) : R.Tames (m.run visits p) := by
  cases m with
  | next document key => exact (tame_next _ _ document key).bind fun _ => tame_pure _
  | act a => exact (tame_act_of_evaluates visits p hm).bind fun _ => tame_pure _
  | adjust f => exact absurd hm Bool.false_ne_true

theorem tame_run (hR : R.misses = true)
    (hadjust : ∀ f, m.Adjusts f → ∀ s, R.Changes s.bindings (f s).bindings) :
    R.Tames (m.run visits p) := by
  cases m with
  | next document key => exact tame_run_of_evaluates rfl
  | act a => exact (tame_act hR visits p a hadjust).bind fun _ => tame_pure _
  | adjust f => exact (tame_modify (hadjust _ rfl)).bind fun _ => tame_pure _

/-- A thread that goes on tamely, or has not failed otherwise than the regime excuses. -/
def TameThread {α : Type} (R : Regime) : Thread Session Fault α → Prop
  | .waiting go => R.Tames go
  | .ended r => ∀ f, r = .error f → R.Excuses f
  | .stuck => True

/-- The thread at a place, if there is one, is tame. -/
def Guards {α : Type} (R : Regime) (q : Pool Session Fault α) (i : Nat) : Prop :=
  ∀ t, q.threads[i]? = some t → R.TameThread t

section

variable {α : Type} {q : Pool Session Fault α} {i j : Nat}

theorem guards_set {t : Thread Session Fault α} (s : Session) (ht : R.TameThread t) :
    R.Guards { state := s, threads := q.threads.set i t } i := by
  intro t' ht'
  rw [List.getElem?_set, if_pos rfl] at ht'
  split at ht'
  · cases ht'
    exact ht
  · cases ht'

/-- A turn of a tame thread keeps to the regime, and leaves the thread tame. -/
theorem tame_turn (hq : R.Begins q.state.bindings) (hi : R.Guards q i) :
    R.Changes q.state.bindings (q.turn i).state.bindings ∧ R.Guards (q.turn i) i := by
  cases ht : q.threads[i]? with
  | none =>
    rw [Pool.turn_of_none ht]
    exact ⟨R.refl _, hi⟩
  | some t =>
    cases t with
    | waiting go =>
      rw [Pool.turn_of_waiting ht]
      have hgo : R.Tame q.state (go q.state) := hi _ ht q.state hq
      generalize go q.state = x at hgo
      cases hgo with
      | done h => exact ⟨h, guards_set _ nofun⟩
      | failed h hf =>
        refine ⟨h, guards_set _ fun f he => ?_⟩
        cases he
        exact hf
      | paused h hk => exact ⟨h, guards_set _ hk⟩
      | exhausted => exact ⟨R.refl _, guards_set _ trivial⟩
    | ended r =>
      rw [Pool.turn_of_ended ht]
      exact ⟨R.refl _, hi⟩
    | stuck =>
      rw [Pool.turn_of_stuck ht]
      exact ⟨R.refl _, hi⟩

theorem Guards.turn_of_ne (h : R.Guards q i) (hij : i ≠ j) : R.Guards (q.turn j) i := by
  intro t ht
  rw [Pool.getElem?_turn_of_ne hij] at ht
  exact h t ht

theorem Guards.excuses_of_result? {f : Fault} (h : R.Guards q i)
    (hr : q.result? i = some (.error f)) : R.Excuses f := by
  unfold Pool.result? at hr
  split at hr
  · next r ht =>
    cases hr
    exact h _ ht f rfl
  · cases hr

end

variable {s : Session} {moves : List Move} {i : Nat}

theorem guards_start (h : ∀ m, moves[i]? = some m → R.Tames (m.run visits p)) :
    R.Guards (played visits p s moves []) i := by
  intro t ht
  cases hm : moves[i]? with
  | none =>
    have hlength : (played visits p s moves []).threads.length = moves.length :=
      (Pool.length_threads_start s _).trans (List.length_map _)
    cases (Pool.getElem?_of_no_job hlength hm).symm.trans ht
  | some m =>
    have hthread : (played visits p s moves []).threads[i]? = some (.waiting (m.run visits p)) :=
      Pool.getElem?_start (by rw [List.getElem?_map, hm]; rfl)
    cases hthread.symm.trans ht
    exact h m hm

/-- A move that is tame by itself is tame among others, if its turns begin as the regime
demands. -/
theorem guards_played (hi : moves[i]? = some m) (h : R.Tames (m.run visits p)) {order : List Nat}
    (hbegins : ∀ before after, order = before ++ i :: after →
      R.Begins (played visits p s moves before).state.bindings) :
    R.Guards (played visits p s moves order) i := by
  induction order using List.reverseRecOn with
  | nil =>
    refine guards_start fun m' hm' => ?_
    cases hi.symm.trans hm'
    exact h
  | append_singleton order j ih =>
    have hguards := ih fun before after he => hbegins before (after ++ [j]) (by simp [he])
    rw [played_concat]
    -- only its own turns bring a thread on
    by_cases hij : i = j
    · subst hij
      exact (tame_turn (hbegins order [] rfl) hguards).2
    · exact hguards.turn_of_ne hij

/-- Moves that are all tame keep together to the regime, in whatever order they take turns. -/
theorem changes_played (h : ∀ m ∈ moves, R.Tames (m.run visits p)) (hs : R.Begins s.bindings)
    (order : List Nat) :
    R.Changes s.bindings (played visits p s moves order).state.bindings ∧
      ∀ i, R.Guards (played visits p s moves order) i := by
  induction order using List.reverseRecOn with
  | nil => exact ⟨R.refl _, fun _ => guards_start fun m hm => h m (List.mem_of_getElem? hm)⟩
  | append_singleton order j ih =>
    obtain ⟨hchanges, hguards⟩ := ih
    have hturn := tame_turn (R.kept hchanges hs) (hguards j)
    rw [played_concat]
    refine ⟨R.trans hchanges hturn.1, fun i => ?_⟩
    by_cases hij : i = j
    · exact hij ▸ hturn.2
    · exact (hguards i).turn_of_ne hij

end Regime
end Parley
