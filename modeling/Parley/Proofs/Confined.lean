import Parley.Proofs.Guard

/-
What the course of a script depends on.

A script reads the bound states, the default document, and how many marks have been
given; it changes the bound states and gives marks, and it leaves entries in the
trace.  As long as host methods have their requests refused, nothing else of a
session matters to a script or is touched by it.  So a change that is made while the
guard is held can as well be made before, and sessions that agree on these parts
can take each other's place.
-/

namespace Parley

namespace Session

/-- The part of a session that the course of a script depends on. -/
def core (s : Session) : Session :=
  { bindings := s.bindings, default := s.default, marks := s.marks }

/-- The session after a script that ran on its core. -/
def after (s c : Session) : Session :=
  { s with bindings := c.bindings, marks := c.marks, trace := s.trace ++ c.trace }

theorem after_core (s : Session) : s.after s.core = s := by
  simp [after, core]

theorem after_after (s c d : Session) : s.after (c.after d) = (s.after c).after d := by
  simp [after]

end Session

namespace Play

/-- A run that depends on the core of a session and changes no more than that. -/
def Confined ⦃α : Type⦄ (x : Play α) : Prop :=
  ∀ s, (x s).finish = (x s.core).finish.map fun r => (r.1, s.after r.2)

section

variable {α β : Type} {x : Play α} {s u c : Session} {r : Except Fault α}

theorem Confined.finish_eq (h : Confined x) (hcore : u.core = s.core) :
    (x u).finish = (x s.core).finish.map fun r => (r.1, u.after r.2) := by
  rw [h u, hcore]

theorem Confined.finish_of_core (h : Confined x) (hx : (x s.core).finish = some (r, c))
    (hcore : u.core = s.core) : (x u).finish = some (r, u.after c) := by
  rw [h.finish_eq hcore, hx]
  rfl

/-- How a run from a session ends tells how it ends from the core. -/
theorem Confined.exists_core (h : Confined x) {t : Session} (hx : (x s).finish = some (r, t)) :
    ∃ c, (x s.core).finish = some (r, c) ∧ t = s.after c := by
  rw [h s, Option.map_eq_some_iff] at hx
  obtain ⟨⟨r', c⟩, hc, he⟩ := hx
  cases he
  exact ⟨c, hc, rfl⟩

theorem Confined.core_after (h : Confined x) (hx : (x s.core).finish = some (r, c)) :
    (s.after c).core = c.core := by
  obtain ⟨d, -, rfl⟩ := h.exists_core hx
  rfl

theorem Confined.bind {f : α → Play β} (hx : Confined x) (hf : ∀ a, Confined (f a)) :
    Confined (x >>= f) := by
  intro s
  rw [Act.finish_bind, Act.finish_bind, hx s]
  cases hc : (x s.core).finish with
  | none => rfl
  | some rc =>
    obtain ⟨r, c⟩ := rc
    cases r with
    | error e => rfl
    | ok a =>
      show (f a (s.after c)).finish = (f a c).finish.map _
      rw [(hf a).finish_eq (hx.core_after hc), hf a c, Option.map_map]
      refine congrArg (Option.map · _) (funext fun rd => ?_)
      exact congrArg (Prod.mk rd.1) (Session.after_after s c rd.2).symm

end

theorem finish_map_after {α : Type} (r : Except Fault α) (s : Session) :
    some (r, s) = (some (r, s.core)).map fun r => (r.1, s.after r.2) :=
  congrArg (fun t => some (r, t)) s.after_core.symm

theorem confined_reading {α : Type} (f : Bindings → Except Fault α) : Confined (reading f) := by
  intro s
  cases hf : f s.bindings with
  | ok a =>
    rw [reading_of_ok hf, reading_of_ok (s := s.core) hf]
    exact finish_map_after (.ok a) s
  | error e =>
    rw [reading_of_error hf, reading_of_error (s := s.core) hf]
    exact finish_map_after (.error e) s

theorem confined_writing (f : Bindings → Except Fault Bindings) : Confined (writing f) := by
  intro s
  cases hf : f s.bindings with
  | ok b =>
    rw [writing_of_ok hf, writing_of_ok (s := s.core) hf]
    simp [Progress.finish, Session.after, Session.core]
  | error e =>
    rw [writing_of_error hf, writing_of_error (s := s.core) hf]
    exact finish_map_after (.error e) s

theorem congruence_confined : Congruence (First Confined) where
  bind := Confined.bind
  read := confined_reading
  writeAt i name value := confined_writing _
  setUnknown _ _ :=
    setUnknown_of_parts (R := First Confined) Confined.bind confined_reading (confined_writing _)
  note _ s := by
    simp [note, Act.modify, Progress.finish, Session.record, Session.after, Session.core]
  pause s := finish_map_after (.ok ()) s
  keep v s := by
    cases v with
    | float x =>
      rw [keep_float, keep_float]
      split
      · simp [Progress.finish, Session.after, Session.core]
      · exact finish_map_after (.ok (Value.float x)) s
    | _ => exact finish_map_after (.ok _) s

theorem confined_refused (r : Option Resource) (key : String) :
    Confined (Act.attempt (refused r key)) := by
  intro s
  exact finish_map_after (.ok (Except.error (refusal r s))) s

/-- Calls of host methods whose requests are refused are confined. -/
theorem confined_invoke (c : Callable) (args : List Value) :
    First Confined (invoke refused c args) (invoke refused c args) :=
  @Congruence.invoke _ congruence_confined refused refused confined_refused c args

theorem confined_mutate (m : Option Expression) : Confined (mutate refused m) :=
  congruence_confined.mutate confined_invoke m

/-! ## Runs and the guard -/

theorem finish_guarded {α : Type} (x : Play α) (s : Session) : (guarded x s).finish =
    (x { s with pending := true }).finish.map fun r => (r.1, { r.2 with pending := false }) :=
  Progress.finish_ensure _ _

/-- A request that gives something has walked the document while it held the guard. -/
theorem exists_walk_of_next {fuel nesting : Nat} {document : Option Resource} {r : Resource}
    {key : String} {s t : Session} {l : Option Line} (hdoc : (document <|> s.default) = some r)
    (h : (next fuel nesting document key s).finish = some (.ok l, t)) :
    ∃ deeper u, nesting = deeper + 1 ∧ t = { u with pending := false } ∧
      (walk (answer fuel deeper) r fuel key { s with pending := true }).finish =
        some (.ok l, u) := by
  cases hp : s.pending with
  | true =>
    rw [next_of_pending hp] at h
    cases h
  | false =>
    cases nesting with
    | zero => rcases Act.finish_bind_eq_some h with ⟨_, _, _, h⟩ | ⟨_, _, h⟩ <;> cases h
    | succ deeper =>
      rw [next_succ, seek, Act.bind_of_done (admitted_of_free hp hdoc), finish_guarded,
        Option.map_eq_some_iff] at h
      obtain ⟨⟨o, u⟩, hu, he⟩ := h
      cases he
      exact ⟨deeper, u, rfl, rfl, hu⟩

/-- Whether the guard is held does not matter to a confined run. -/
theorem Confined.finish_guarded {α : Type} {x : Play α} (hx : Confined x) {s : Session}
    (hs : s.pending = false) : (guarded x s).finish = (x s).finish := by
  have hheld : (x { s with pending := true }).finish = (x s.core).finish.map _ := hx.finish_eq rfl
  rw [Play.finish_guarded, hheld, hx s, Option.map_map]
  refine congrArg (Option.map · _) (funext fun rc => ?_)
  simp [Session.after, ← hs]

/-- Two calm runs that go on alike under the guard give the same under it. -/
theorem Locked.finish_guarded {α : Type} {post : Except Fault α → Session → Session → Prop}
    {x y : Play α} {s : Session}
    (hxy : Locked post { s with pending := true } (x { s with pending := true })
      (y { s with pending := true })) : (guarded x s).finish = (guarded y s).finish := by
  rw [Play.finish_guarded, Play.finish_guarded, hxy.finish_eq rfl]

/-- Between the parts of a guarded run the guard can be let go and taken again. -/
theorem Locked.finish_guarded_bind {α β : Type} {x y : Play α} {f g : α → Play β} {s : Session}
    (hxy : Locked (fun _ => Session.Calm) { s with pending := true }
      (x { s with pending := true }) (y { s with pending := true }))
    (hfg : ∀ a u, u.pending = false → u.default = s.default →
      (guarded (f a) u).finish = (g a u).finish) :
    (guarded (y >>= f) s).finish = ((guarded x >>= g) s).finish := by
  rw [Play.finish_guarded, Act.finish_bind, Act.finish_bind, Play.finish_guarded,
    ← hxy.finish_eq rfl]
  cases hr : (x { s with pending := true }).finish with
  | none => rfl
  | some rt =>
    obtain ⟨r, t⟩ := rt
    cases r with
    | error e => rfl
    | ok a =>
      have hcalm : Session.Calm { s with pending := true } t :=
        hxy.post_of_finish (fun _ _ _ _ => Session.Calm.trans) rfl hr
      have hheld : { t with pending := true } = t := by
        have hp : t.pending = true := hcalm.pending_eq
        rw [← hp]
      have hrest := hfg a { t with pending := false } rfl hcalm.default_eq
      rw [Play.finish_guarded] at hrest
      show (f a t).finish.map _ = (g a { t with pending := false }).finish
      rw [← hrest, ← hheld]

end Play
end Parley
