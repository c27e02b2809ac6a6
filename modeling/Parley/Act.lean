/-
Runs that can pause.

An act takes the current state and makes progress: it finishes, fails, or pauses
and hands over what is left to do.  A paused run resumes in whatever state it is
given, so other runs may change the state in between.  Loops carry fuel, and a
run without fuel is kept apart from one that failed.
-/

namespace Parley

/-- Where a run stands after it has gone as far as it can. -/
inductive Progress (σ ε α : Type) where
  | done (a : α) (s : σ)
  | failed (e : ε) (s : σ)
  | paused (s : σ) (resume : σ → Progress σ ε α)
  | exhausted

namespace Progress

variable {σ ε α β γ : Type}

def bind (f : α → σ → Progress σ ε β) : Progress σ ε α → Progress σ ε β
  | done a s => f a s
  | failed e s => failed e s
  | paused s resume => paused s fun s => (resume s).bind f
  | exhausted => exhausted

/-- Turns failure into a result. -/
def attempt : Progress σ ε α → Progress σ ε (Except ε α)
  | done a s => done (.ok a) s
  | failed e s => done (.error e) s
  | paused s resume => paused s fun s => (resume s).attempt
  | exhausted => exhausted

/-- Changes the state once at the end, however the run ends. -/
def ensure (f : σ → σ) : Progress σ ε α → Progress σ ε α
  | done a s => done a (f s)
  | failed e s => failed e (f s)
  | paused s resume => paused s fun s => (resume s).ensure f
  | exhausted => exhausted

/-- Resumes at every pause, in the state the run paused in. -/
def finish : Progress σ ε α → Option (Except ε α × σ)
  | done a s => some (.ok a, s)
  | failed e s => some (.error e, s)
  | paused s resume => (resume s).finish
  | exhausted => none

/-- A run that has ended. -/
def ended (r : Except ε α) (s : σ) : Progress σ ε α :=
  match r with
  | .ok a => done a s
  | .error e => failed e s

/-- The ways a run may end when others may change the state in each of its pauses. -/
inductive MayEnd : Progress σ ε α → Except ε α → σ → Prop
  | done (a : α) (s : σ) : MayEnd (done a s) (.ok a) s
  | failed (e : ε) (s : σ) : MayEnd (failed e s) (.error e) s
  | paused {s u t : σ} {resume : σ → Progress σ ε α} {r : Except ε α} :
    MayEnd (resume u) r t → MayEnd (paused s resume) r t

@[simp] theorem bind_done (f : α → σ → Progress σ ε β) (a : α) (s : σ) :
    (done a s : Progress σ ε α).bind f = f a s := rfl

@[simp] theorem bind_failed (f : α → σ → Progress σ ε β) (e : ε) (s : σ) :
    (failed e s : Progress σ ε α).bind f = failed e s := rfl

@[simp] theorem bind_exhausted (f : α → σ → Progress σ ε β) :
    (exhausted : Progress σ ε α).bind f = exhausted := rfl

theorem bind_done_right (p : Progress σ ε α) : p.bind done = p := by
  induction p with
  | done a s => rfl
  | failed e s => rfl
  | paused s resume ih => simp [bind, ih]
  | exhausted => rfl

theorem bind_assoc (p : Progress σ ε α) (f : α → σ → Progress σ ε β)
    (g : β → σ → Progress σ ε γ) :
    (p.bind f).bind g = p.bind fun a s => (f a s).bind g := by
  induction p with
  | done a s => rfl
  | failed e s => rfl
  | paused s resume ih => simp [bind, ih]
  | exhausted => rfl

/-- Finishing a run in two parts finishes the first and then, unless that failed,
the second. -/
theorem finish_bind (p : Progress σ ε α) (f : α → σ → Progress σ ε β) :
    (p.bind f).finish =
      match p.finish with
      | some (.ok a, s) => (f a s).finish
      | some (.error e, s) => some (.error e, s)
      | none => none := by
  induction p with
  | done a s => rfl
  | failed e s => rfl
  | paused s resume ih => exact ih s
  | exhausted => rfl

theorem finish_attempt (p : Progress σ ε α) :
    p.attempt.finish = p.finish.map fun r => (.ok r.1, r.2) := by
  induction p with
  | done a s => rfl
  | failed e s => rfl
  | paused s resume ih => exact ih s
  | exhausted => rfl

theorem finish_ensure (f : σ → σ) (p : Progress σ ε α) :
    (p.ensure f).finish = p.finish.map fun r => (r.1, f r.2) := by
  induction p with
  | done a s => rfl
  | failed e s => rfl
  | paused s resume ih => exact ih s
  | exhausted => rfl

/-- Nobody else is needed for a run to end as it does on its own. -/
theorem mayEnd_of_finish {p : Progress σ ε α} {r : Except ε α} {t : σ}
    (h : p.finish = some (r, t)) : p.MayEnd r t := by
  induction p with
  | done a s =>
    cases h
    exact .done a _
  | failed e s =>
    cases h
    exact .failed e _
  | paused s resume ih => exact .paused (ih s h)
  | exhausted => cases h

/-- The ends of a run in two parts: those of the second part after the first has given
something, and the faults of the first. -/
theorem mayEnd_bind {p : Progress σ ε α} {f : α → σ → Progress σ ε β} {r : Except ε β} {t : σ} :
    (p.bind f).MayEnd r t ↔ (∃ a u, p.MayEnd (.ok a) u ∧ (f a u).MayEnd r t) ∨
      ∃ e, p.MayEnd (.error e) t ∧ r = .error e := by
  constructor
  · intro h
    induction p with
    | done a s => exact .inl ⟨a, s, .done a s, h⟩
    | failed e s =>
      cases h
      exact .inr ⟨e, .failed e _, rfl⟩
    | paused s resume ih =>
      cases h with
      | @paused _ v _ _ _ h =>
        rcases ih v h with ⟨a, u, ha, hb⟩ | ⟨e, he, hr⟩
        · exact .inl ⟨a, u, .paused ha, hb⟩
        · exact .inr ⟨e, .paused he, hr⟩
    | exhausted => cases h
  · rintro (⟨a, u, ha, hb⟩ | ⟨e, he, rfl⟩)
    · generalize hx : Except.ok a = x at ha
      induction ha with
      | done a' s =>
        cases hx
        exact hb
      | failed e s => cases hx
      | paused _ ih => exact .paused (ih hb hx)
    · generalize hx : Except.error e = x at he
      induction he with
      | done a s => cases hx
      | failed e' s =>
        cases hx
        exact .failed e s
      | paused _ ih => exact .paused (ih hx)

theorem mayEnd_bind_ok {p : Progress σ ε α} {f : α → σ → Progress σ ε β} {b : β} {t : σ} :
    (p.bind f).MayEnd (.ok b) t ↔ ∃ a u, p.MayEnd (.ok a) u ∧ (f a u).MayEnd (.ok b) t := by
  simp [mayEnd_bind]

theorem mayEnd_ended {r r' : Except ε α} {s t : σ} :
    (ended r s).MayEnd r' t ↔ r' = r ∧ t = s := by
  constructor
  · intro h
    cases r <;> cases h <;> exact ⟨rfl, rfl⟩
  · rintro ⟨rfl, rfl⟩
    cases r' with
    | ok a => exact .done a _
    | error e => exact .failed e _

theorem MayEnd.of_ensure {f : σ → σ} {p : Progress σ ε α} {r : Except ε α} {t : σ}
    (h : (p.ensure f).MayEnd r t) : ∃ u, p.MayEnd r u ∧ t = f u := by
  induction p with
  | done a s =>
    cases h
    exact ⟨s, .done a s, rfl⟩
  | failed e s =>
    cases h
    exact ⟨s, .failed e s, rfl⟩
  | paused s resume ih =>
    cases h with
    | @paused _ v _ _ _ h =>
      obtain ⟨u, hu, ht⟩ := ih v h
      exact ⟨u, .paused hu, ht⟩
  | exhausted => cases h

end Progress

/-- A run that has yet to be given a state. -/
def Act (σ ε α : Type) : Type := σ → Progress σ ε α

namespace Act

variable {σ ε α β κ : Type}

instance : Monad (Act σ ε) where
  pure a := fun s => .done a s
  bind x f := fun s => (x s).bind f

theorem bind_apply (x : Act σ ε α) (f : α → Act σ ε β) (s : σ) :
    (x >>= f) s = (x s).bind f := rfl

theorem bind_of_done {x : Act σ ε α} {s t : σ} {a : α} (h : x s = .done a t)
    (f : α → Act σ ε β) : (x >>= f) s = f a t := by
  show (x s).bind f = _
  rw [h]
  rfl

theorem bind_of_failed {x : Act σ ε α} {s t : σ} {e : ε} (h : x s = .failed e t)
    (f : α → Act σ ε β) : (x >>= f) s = .failed e t := by
  show (x s).bind f = _
  rw [h]
  rfl

instance : LawfulMonad (Act σ ε) :=
  LawfulMonad.mk'
    (Act σ ε)
    (fun x => funext fun s => Progress.bind_done_right (x s))
    (fun _ _ => rfl)
    (fun x f g => funext fun s => Progress.bind_assoc (x s) f g)

theorem finish_bind (x : Act σ ε α) (f : α → Act σ ε β) (s : σ) :
    ((x >>= f) s).finish =
      match (x s).finish with
      | some (.ok a, t) => (f a t).finish
      | some (.error e, t) => some (.error e, t)
      | none => none :=
  Progress.finish_bind (x s) f

theorem finish_bind_eq_some {x : Act σ ε α} {f : α → Act σ ε β} {s t : σ} {r : Except ε β}
    (h : ((x >>= f) s).finish = some (r, t)) :
    (∃ a u, (x s).finish = some (.ok a, u) ∧ (f a u).finish = some (r, t)) ∨
      ∃ e, (x s).finish = some (.error e, t) ∧ r = .error e := by
  rw [finish_bind] at h
  split at h
  · next a u hx => exact .inl ⟨a, u, hx, h⟩
  · next e u hx =>
    cases h
    exact .inr ⟨e, hx, rfl⟩
  · cases h

theorem mayEnd_pure {a : α} {s t : σ} {r : Except ε α} :
    ((pure a : Act σ ε α) s).MayEnd r t ↔ r = .ok a ∧ t = s := by
  constructor
  · intro h
    cases h
    exact ⟨rfl, rfl⟩
  · rintro ⟨rfl, rfl⟩
    exact .done a _

theorem mayEnd_bind {x : Act σ ε α} {f : α → Act σ ε β} {s t : σ} {r : Except ε β} :
    ((x >>= f) s).MayEnd r t ↔ (∃ a u, (x s).MayEnd (.ok a) u ∧ (f a u).MayEnd r t) ∨
      ∃ e, (x s).MayEnd (.error e) t ∧ r = .error e :=
  Progress.mayEnd_bind

theorem mayEnd_bind_ok {x : Act σ ε α} {f : α → Act σ ε β} {s t : σ} {b : β} :
    ((x >>= f) s).MayEnd (.ok b) t ↔
      ∃ a u, (x s).MayEnd (.ok a) u ∧ (f a u).MayEnd (.ok b) t :=
  Progress.mayEnd_bind_ok

def fail (e : ε) : Act σ ε α := fun s => .failed e s

def pause : Act σ ε Unit := fun s => .paused s fun s => .done () s

def pauses : Nat → Act σ ε Unit
  | 0 => pure ()
  | n + 1 => do pause; pauses n

/-- Reads the state, which may fail but changes nothing. -/
def read (f : σ → Except ε α) : Act σ ε α := fun s =>
  match f s with
  | .ok a => .done a s
  | .error e => .failed e s

theorem read_of_ok {f : σ → Except ε α} {s : σ} {a : α} (h : f s = .ok a) :
    read f s = .done a s := by
  rw [read, h]

theorem read_of_error {f : σ → Except ε α} {s : σ} {e : ε} (h : f s = .error e) :
    read f s = .failed e s := by
  rw [read, h]

theorem finish_read (f : σ → Except ε α) (s : σ) : (read f s).finish = some (f s, s) := by
  unfold read
  cases f s with
  | ok a => rfl
  | error e => rfl

def ofExcept (x : Except ε α) : Act σ ε α := read fun _ => x

def modify (f : σ → σ) : Act σ ε Unit := fun s => .done () (f s)

def attempt (x : Act σ ε α) : Act σ ε (Except ε α) := fun s => (x s).attempt

/-- An attempt never fails, and gives how the run ended. -/
theorem finish_attempt_eq_some {x : Act σ ε α} {s t : σ} {o : Except ε (Except ε α)}
    (h : (attempt x s).finish = some (o, t)) : ∃ r, o = .ok r ∧ (x s).finish = some (r, t) := by
  rw [attempt, Progress.finish_attempt, Option.map_eq_some_iff] at h
  obtain ⟨⟨r, t'⟩, hx, he⟩ := h
  cases he
  exact ⟨r, rfl, hx⟩

def ensure (f : σ → σ) (x : Act σ ε α) : Act σ ε α := fun s => (x s).ensure f

/-- Repeats a step from `k` until it gives a result, at most `fuel` times. -/
def iterate (step : κ → Act σ ε (κ ⊕ α)) : Nat → κ → Act σ ε α
  | 0, _ => fun _ => .exhausted
  | fuel + 1, k => do
    match ← step k with
    | .inl k => iterate step fuel k
    | .inr a => pure a

theorem iterate_succ (step : κ → Act σ ε (κ ⊕ α)) (fuel : Nat) (k : κ) :
    iterate step (fuel + 1) k = step k >>= fun
      | .inl k => iterate step fuel k
      | .inr a => pure a := rfl

/-- Runs an act on each element in turn and gathers the results it keeps. -/
def gather (f : α → Act σ ε (Option β)) : List α → Act σ ε (List β)
  | [] => pure []
  | a :: as => do
    let b ← f a
    let bs ← gather f as
    pure (b.toList ++ bs)

/-- Makes runs one after another, whether they fail or not. -/
def attempts : List (Act σ ε α) → Act σ ε (List (Except ε α))
  | [] => pure []
  | x :: xs => do
    let r ← attempt x
    let rs ← attempts xs
    pure (r :: rs)

theorem finish_attempts_cons {x : Act σ ε α} {xs : List (Act σ ε α)} {s t : σ}
    {o : Except ε (List (Except ε α))} (h : (attempts (x :: xs) s).finish = some (o, t)) :
    ∃ r u o', (x s).finish = some (r, u) ∧ (attempts xs u).finish = some (o', t) ∧
      o = o'.map (r :: ·) := by
  rcases finish_bind_eq_some h with ⟨r, u, hu, ht⟩ | ⟨e, he, -⟩
  · obtain ⟨r', hr, hx⟩ := finish_attempt_eq_some hu
    cases hr
    rcases finish_bind_eq_some ht with ⟨rs, v, hv, hdone⟩ | ⟨e, he, rfl⟩
    · cases hdone
      exact ⟨r, u, .ok rs, hx, hv, rfl⟩
    · exact ⟨r, u, .error e, hx, he, rfl⟩
  · obtain ⟨r, hr, -⟩ := finish_attempt_eq_some he
    cases hr

theorem finish_attempts_cons_of {x : Act σ ε α} {xs : List (Act σ ε α)} {s t u : σ}
    {r : Except ε α} {o : Except ε (List (Except ε α))} (hx : (x s).finish = some (r, t))
    (hxs : (attempts xs t).finish = some (o, u)) :
    (attempts (x :: xs) s).finish = some (o.map (r :: ·), u) := by
  have hattempt : (attempt x s).finish = some (.ok r, t) := by
    rw [attempt, Progress.finish_attempt, hx]
    rfl
  rw [attempts, finish_bind, hattempt]
  show ((attempts xs >>= fun rs => pure (r :: rs)) t).finish = _
  rw [finish_bind, hxs]
  cases o <;> rfl

/-! ## Runs that end -/

/-- A run that ends from every state of a kind, in a state of that kind. -/
def Ends (kind : σ → Prop) (x : Act σ ε α) : Prop :=
  ∀ s, kind s → ∃ r t, (x s).finish = some (r, t) ∧ kind t

section

variable {kind : σ → Prop}

theorem Ends.bind {x : Act σ ε α} {f : α → Act σ ε β} (hx : Ends kind x)
    (hf : ∀ a, Ends kind (f a)) : Ends kind (x >>= f) := by
  intro s hs
  obtain ⟨r, t, hr, ht⟩ := hx s hs
  rw [finish_bind, hr]
  cases r with
  | ok a => exact hf a t ht
  | error e => exact ⟨_, t, rfl, ht⟩

theorem ends_read (f : σ → Except ε α) : Ends kind (read f) :=
  fun s hs => ⟨f s, s, finish_read f s, hs⟩

theorem ends_modify {f : σ → σ} (h : ∀ s, kind s → kind (f s)) :
    Ends kind (modify f : Act σ ε Unit) := fun s hs => ⟨_, _, rfl, h s hs⟩

theorem Ends.attempt {x : Act σ ε α} (hx : Ends kind x) : Ends kind (attempt x) := by
  intro s hs
  obtain ⟨r, t, hr, ht⟩ := hx s hs
  exact ⟨.ok r, t, by rw [Act.attempt, Progress.finish_attempt, hr]; rfl, ht⟩

end

end Act
end Parley
