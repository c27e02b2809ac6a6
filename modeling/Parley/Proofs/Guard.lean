import Parley.Proofs.Signal
import Parley.Session.Next

/-
The guard of a walk.

While the guard is held every request for a line is refused and changes nothing.
A walk holds the guard at every pause, so it runs as if the requests of its host
methods were refused outright; in the meantime it neither releases the guard nor
moves the running signal, and it moves the signal only with its very last step.
`Locked` says all of this of two runs, step by step, and `locked_guarded` is the
law of a walk.
-/

namespace Parley

namespace Session

/-- Nothing was announced, and the guard and the default document stand as they stood. -/
structure Calm (s t : Session) : Prop where
  tells : s.Tells t []
  pending_eq : t.pending = s.pending
  default_eq : t.default = s.default

theorem Calm.refl (s : Session) : s.Calm s := ⟨Tells.refl s, rfl, rfl⟩

theorem Calm.trans {s t u : Session} (h : s.Calm t) (h' : t.Calm u) : s.Calm u :=
  ⟨h.tells.trans h'.tells, h'.pending_eq.trans h.pending_eq, h'.default_eq.trans h.default_eq⟩

theorem Calm.running_eq {s t : Session} (h : s.Calm t) : t.running = s.running :=
  h.tells.running_eq

theorem calm_of_eq {s t : Session} (ht : t.trace = s.trace) (hr : t.running = s.running)
    (hp : t.pending = s.pending) (hd : t.default = s.default) : s.Calm t :=
  ⟨tells_of_silent (by rw [ht, List.append_nil]) (by simp) hr, hp, hd⟩

theorem calm_record {e : Entry} (he : e.Silent) (s : Session) : s.Calm (s.record e) :=
  ⟨tells_of_silent rfl (by simpa using he) rfl, rfl, rfl⟩

end Session

namespace Play

/-! ## Refusals -/

/-- The fault of a request that is refused. -/
def refusal (r : Option Resource) (s : Session) : Fault :=
  match r <|> s.default with
  | none => .noResource
  | some _ => .inProgress

/-- Refuses every request. -/
def refused : Ask := fun r _ s => .failed (refusal r s) s

theorem refusal_of_isSome {doc : Option Resource} {t : Session}
    (h : (doc <|> t.default).isSome) : refusal doc t = .inProgress := by
  obtain ⟨r, hr⟩ := Option.isSome_iff_exists.mp h
  simp only [refusal, hr]

theorem admitted_of_pending {s : Session} (hs : s.pending = true) (r : Option Resource) :
    admitted r s = .failed (refusal r s) s := by
  unfold admitted refusal
  refine Act.read_of_error ?_
  cases r <|> s.default with
  | none => rfl
  | some r => simp only [hs, if_true]

theorem admitted_of_free {s : Session} (hs : s.pending = false) {r : Option Resource}
    {doc : Resource} (hd : (r <|> s.default) = some doc) : admitted r s = .done doc s := by
  refine Act.read_of_ok ?_
  simp only [hd, hs, Bool.false_eq_true, if_false]

theorem admitted_of_none {s : Session} {r : Option Resource} (hd : (r <|> s.default) = none) :
    admitted r s = .failed .noResource s := by
  refine Act.read_of_error ?_
  simp only [hd]

theorem seek_of_pending {s : Session} (hs : s.pending = true) (ask : Ask) (fuel : Nat)
    (r : Option Resource) (key : String) :
    seek ask fuel r key s = .failed (refusal r s) s :=
  Act.bind_of_failed (admitted_of_pending hs r) _

/-- While a walk is under way a request is refused, however deep it is nested, and
the session is left as it is. -/
theorem next_of_pending {s : Session} (hs : s.pending = true) (fuel nesting : Nat)
    (r : Option Resource) (key : String) :
    next fuel nesting r key s = .failed (refusal r s) s := by
  cases nesting with
  | zero => exact Act.bind_of_failed (admitted_of_pending hs r) _
  | succ nesting => exact seek_of_pending hs _ fuel r key

theorem answer_of_pending {s : Session} (hs : s.pending = true) (fuel nesting : Nat)
    (r : Option Resource) (key : String) : answer fuel nesting r key s = refused r key s :=
  Act.bind_of_failed (next_of_pending hs fuel nesting r key) _

/-! ## Runs under the guard -/

/-- Two runs that go on alike for as long as others keep the guard held in their
pauses.  Neither announces anything before it ends, and `post` relates the session
they were last resumed in to the one they end in. -/
inductive Locked {α : Type} (post : Except Fault α → Session → Session → Prop) :
    Session → Progress Session Fault α → Progress Session Fault α → Prop
  | done {s t : Session} {a : α} : post (.ok a) s t → Locked post s (.done a t) (.done a t)
  | failed {s t : Session} {e : Fault} :
    post (.error e) s t → Locked post s (.failed e t) (.failed e t)
  | paused {s t : Session} {k k' : Session → Progress Session Fault α} :
    s.Calm t → (∀ u, u.pending = true → Locked post u (k u) (k' u)) →
      Locked post s (.paused t k) (.paused t k')
  | exhausted {s : Session} : Locked post s .exhausted .exhausted

/-- A way to end that a calm beginning does not spoil, and a calm failure keeps. -/
structure Absorbs {α : Type} (post : Except Fault α → Session → Session → Prop) : Prop where
  begin {r : Except Fault α} {s t u : Session} : s.Calm t → post r t u → post r s u
  error {e : Fault} {s t : Session} : s.Calm t → post (.error e) s t

theorem absorbs_calm {α : Type} : Absorbs fun _ : Except Fault α => Session.Calm where
  begin h h' := h.trans h'
  error h := h

namespace Locked

variable {α β : Type} {post : Except Fault α → Session → Session → Prop}
  {p q : Progress Session Fault α} {s t : Session}

theorem begin (hpost : Absorbs post) (hst : s.Calm t) (h : Locked post t p q) :
    Locked post s p q := by
  cases h with
  | done h => exact .done (hpost.begin hst h)
  | failed h => exact .failed (hpost.begin hst h)
  | paused h hk => exact .paused (hst.trans h) hk
  | exhausted => exact .exhausted

/-- Two sequences go on alike when their second parts do, from wherever the first
ones may end. -/
theorem bind {post' : Except Fault β → Session → Session → Prop}
    {f f' : α → Session → Progress Session Fault β} (h : Locked post s p q)
    (hs : s.pending = true) (herror : ∀ e u v, post (.error e) u v → post' (.error e) u v)
    (hf : ∀ a u v, u.pending = true → post (.ok a) u v → Locked post' u (f a v) (f' a v)) :
    Locked post' s (p.bind f) (q.bind f') := by
  induction h with
  | done h => exact hf _ _ _ hs h
  | failed h => exact .failed (herror _ _ _ h)
  | paused h hk ih => exact .paused h fun u hu => ih u hu hu
  | exhausted => exact .exhausted

/-- The first part of a sequence may be any calm run. -/
theorem bind_calm {post' : Except Fault β → Session → Session → Prop} (hpost : Absorbs post')
    {f f' : α → Session → Progress Session Fault β}
    (h : Locked (fun _ => Session.Calm) s p q) (hs : s.pending = true)
    (hf : ∀ a u, u.pending = true → Locked post' u (f a u) (f' a u)) :
    Locked post' s (p.bind f) (q.bind f') :=
  h.bind hs (fun _ _ _ hc => hpost.error hc) fun a _ v hu hc =>
    begin hpost hc (hf a v (hc.pending_eq.trans hu))

theorem ensure {post' : Except Fault α → Session → Session → Prop} {f : Session → Session}
    (hpost : ∀ r u v, post r u v → post' r u (f v)) (h : Locked post s p q) :
    Locked post' s (p.ensure f) (q.ensure f) := by
  induction h with
  | done h => exact .done (hpost _ _ _ h)
  | failed h => exact .failed (hpost _ _ _ h)
  | paused h hk ih => exact .paused h ih
  | exhausted => exact .exhausted

theorem finish_eq (h : Locked post s p q) (hs : s.pending = true) : p.finish = q.finish := by
  induction h with
  | done h => rfl
  | failed h => rfl
  | paused h hk ih =>
    have ht := h.pending_eq.trans hs
    exact ih _ ht ht
  | exhausted => rfl

theorem post_of_finish (h : Locked post s p q)
    (hpost : ∀ r s t u, Session.Calm s t → post r t u → post r s u) (hs : s.pending = true)
    {r : Except Fault α} (hr : p.finish = some (r, t)) : post r s t := by
  induction h with
  | done h => cases hr; exact h
  | failed h => cases hr; exact h
  | paused h hk ih =>
    have hu := h.pending_eq.trans hs
    exact hpost _ _ _ _ h (ih _ hu hu hr)
  | exhausted => cases hr

end Locked

/-! ## Scripts under the guard -/

/-- Two runs that go on alike under the guard and stay calm to their ends. -/
def HeldCalm ⦃α : Type⦄ (x y : Play α) : Prop :=
  ∀ s, s.pending = true → Locked (fun _ => Session.Calm) s (x s) (y s)

theorem heldCalm_writing (f : Bindings → Except Fault Bindings) :
    HeldCalm (writing f) (writing f) := by
  intro s _
  unfold writing
  split
  · exact .done (Session.calm_of_eq rfl rfl rfl rfl)
  · exact .failed (Session.Calm.refl s)

theorem heldCalm_reading {α : Type} (f : Bindings → Except Fault α) :
    HeldCalm (reading f) (reading f) := by
  intro s _
  unfold reading Act.read
  split
  · exact .done (Session.Calm.refl s)
  · exact .failed (Session.Calm.refl s)

theorem HeldCalm.bind {α β : Type} {x x' : Play α} {f f' : α → Play β} (hx : HeldCalm x x')
    (hf : ∀ a, HeldCalm (f a) (f' a)) : HeldCalm (x >>= f) (x' >>= f') :=
  fun s hs => (hx s hs).bind_calm absorbs_calm hs fun a u hu => hf a u hu

theorem congruence_heldCalm : Congruence HeldCalm where
  bind := HeldCalm.bind
  read := heldCalm_reading
  writeAt i name value := heldCalm_writing _
  setUnknown _ _ := setUnknown_of_parts HeldCalm.bind heldCalm_reading (heldCalm_writing _)
  note he s _ := .done (Session.calm_record he s)
  pause s hs := .paused (Session.Calm.refl s) fun u _ => .done (Session.Calm.refl u)
  keep v s _ := by
    obtain ⟨v', n, hkeep⟩ := exists_keep v s
    rw [hkeep]
    exact .done (Session.calm_of_eq rfl rfl rfl rfl)

/-- Under the guard every request of a host method might as well be refused
outright. -/
theorem heldCalm_answer (fuel nesting : Nat) (r : Option Resource) (key : String) :
    HeldCalm (Act.attempt (answer fuel nesting r key)) (Act.attempt (refused r key)) := by
  intro s hs
  unfold Act.attempt
  rw [answer_of_pending hs]
  exact .done (Session.Calm.refl s)

theorem heldCalm_invoke (fuel nesting : Nat) (c : Callable) (args : List Value) :
    HeldCalm (invoke (answer fuel nesting) c args) (invoke refused c args) :=
  congruence_heldCalm.invoke (heldCalm_answer fuel nesting) c args

/-! ## Walks -/

/-- The signals of a request, by where the running signal stood and how the request
ended. -/
def heralds (running : Bool) : Except Fault (Option Line) → List Signal
  | .ok (some _) => told running true
  | .ok none => told running true ++ [.finished]
  | .error _ => []

/-- The running signal after such a request. -/
def runningAfter (running : Bool) : Except Fault (Option Line) → Bool
  | .ok l => l.isSome
  | .error _ => running

/-- A request that ended in the given way took one session to the other. -/
def Closes (r : Except Fault (Option Line)) (s t : Session) : Prop :=
  s.Tells t (heralds s.running r)

theorem Closes.running_eq {r : Except Fault (Option Line)} {s t : Session} (h : Closes r s t) :
    t.running = runningAfter s.running r := by
  obtain ⟨es, -, hes, htr⟩ := h
  rw [eq_of_track htr, hes]
  match r with
  | .ok (some _) => cases s.running <;> rfl
  | .ok none => cases s.running <;> rfl
  | .error _ => rfl

/-- One visit of a walk: it goes on calmly, or closes the request. -/
def StepCloses : Except Fault (String ⊕ Option Line) → Session → Session → Prop
  | .ok (.inl _), s, t => s.Calm t
  | .ok (.inr l), s, t => Closes (.ok l) s t
  | .error _, s, t => s.Calm t

theorem absorbs_closes : Absorbs Closes where
  begin {r s t u} h h' := by
    have := h.1.trans h'
    rwa [h.running_eq, List.nil_append] at this
  error h := h.1

theorem absorbs_stepCloses : Absorbs StepCloses where
  begin {r s t u} h h' := by
    match r, h' with
    | .ok (.inl _), h' => exact h.trans h'
    | .ok (.inr l), h' => exact absorbs_closes.begin h h'
    | .error _, h' => exact h.trans h'
  error h := h

theorem locked_finishDialogue (s : Session) :
    Locked StepCloses s ((finishDialogue s).bind fun l t => .done (.inr l) t)
      ((finishDialogue s).bind fun l t => .done (.inr l) t) := by
  rcases finishDialogue_cases s with h | ⟨bus, es, h, hes, htr⟩
  · rw [h]
    exact .exhausted
  · rw [h]
    exact .done ⟨es, rfl, hes, htr⟩

theorem locked_setRunning (l : Line) (s : Session) :
    Locked StepCloses s ((setRunning true s).bind fun _ t => .done (.inr (some l)) t)
      ((setRunning true s).bind fun _ t => .done (.inr (some l)) t) := by
  rcases setRunning_cases true s with h | ⟨bus, es, h, hes, htr⟩
  · rw [h]
    exact .exhausted
  · rw [h]
    exact .done ⟨es, rfl, hes, htr⟩

variable (fuel nesting : Nat)

theorem locked_goOn (key : String) (s : Session) :
    Locked StepCloses s (goOn key s) (goOn key s) := by
  by_cases h : key = ""
  · subst h
    exact locked_finishDialogue s
  · rw [goOn_of_ne h]
    exact .done (Session.Calm.refl s)

theorem locked_proceed (l : Option Line) {s : Session} (hs : s.pending = true) :
    Locked StepCloses s (proceed (answer fuel nesting) l s) (proceed refused l s) := by
  cases l with
  | none => exact locked_finishDialogue s
  | some l =>
    cases hv : l.isValid with
    | false =>
      rw [proceed_of_invalid hv, proceed_of_invalid hv]
      exact locked_finishDialogue s
    | true =>
      by_cases hk : l.kind = .mutation
      · rw [proceed_of_change hv hk, proceed_of_change hv hk]
        exact (congruence_heldCalm.mutate (heldCalm_invoke fuel nesting) l.mutation s hs).bind_calm
          absorbs_stepCloses hs fun _ u _ => locked_goOn l.nextId u
      · rw [proceed_of_shown hv hk, proceed_of_shown hv hk]
        exact locked_setRunning l s

theorem locked_step (r : Resource) (key : String) {s : Session} (hs : s.pending = true) :
    Locked StepCloses s (step (answer fuel nesting) r key s) (step refused r key s) := by
  refine (congruence_heldCalm.visit (heldCalm_invoke fuel nesting) r key s hs).bind_calm
    absorbs_stepCloses hs fun v u hu => ?_
  cases v with
  | inl key => exact .done (Session.Calm.refl u)
  | inr l => exact locked_proceed fuel nesting l hu

theorem locked_walk (r : Resource) (visits : Nat) (key : String) {s : Session}
    (hs : s.pending = true) :
    Locked Closes s (walk (answer fuel nesting) r visits key s) (walk refused r visits key s) := by
  induction visits generalizing key s with
  | zero => exact .exhausted
  | succ visits ih =>
    refine (locked_step fuel nesting r key hs).bind hs (fun _ _ _ h => h.1) fun v u w hu hv => ?_
    cases v with
    | inl key => exact .begin absorbs_closes hv (ih key (hv.pending_eq.trans hu))
    | inr l => exact .done hv

/-- A request that ended in the given way, and let go of the guard. -/
def Ends (r : Except Fault (Option Line)) (s t : Session) : Prop :=
  Closes r s t ∧ t.pending = false

theorem ends_of_calm {r : Except Fault (Option Line)} {s t u : Session}
    (h : s.Calm t) (h' : Ends r t u) : Ends r s u :=
  ⟨absorbs_closes.begin h h'.1, h'.2⟩

/-- A guarded walk closes its request and releases the guard, however it ends. -/
theorem locked_guarded (r : Resource) (visits : Nat) (key : String) (s : Session) :
    Locked Ends { s with pending := true }
      (guarded (walk (answer fuel nesting) r visits key) s)
      (guarded (walk refused r visits key) s) :=
  (locked_walk fuel nesting r visits key rfl).ensure fun _ _ _ h => ⟨h, rfl⟩

/-- Run to its end, a request gives the same as one that refuses its host methods
all requests. -/
theorem finish_next (r : Option Resource) (key : String) (s : Session) :
    (next fuel (nesting + 1) r key s).finish = (seek refused fuel r key s).finish := by
  rw [next_succ]
  cases hs : s.pending with
  | true => rw [seek_of_pending hs, seek_of_pending hs]
  | false =>
    cases hd : (r <|> s.default) with
    | none =>
      rw [seek, seek, Act.bind_of_failed (admitted_of_none hd),
        Act.bind_of_failed (admitted_of_none hd)]
    | some doc =>
      rw [seek, seek, Act.bind_of_done (admitted_of_free hs hd),
        Act.bind_of_done (admitted_of_free hs hd)]
      exact (locked_guarded fuel nesting doc fuel key s).finish_eq rfl

theorem closes_of_finish {fuel nesting : Nat} {r : Option Resource} {key : String} {s t : Session}
    {o : Except Fault (Option Line)} (h : (next fuel nesting r key s).finish = some (o, t)) :
    Closes o s t := by
  cases hs : s.pending with
  | true =>
    rw [next_of_pending hs] at h
    cases h
    exact Session.Tells.refl s
  | false =>
    cases hd : (r <|> s.default) with
    | none =>
      have hfail : next fuel nesting r key s = .failed .noResource s := by
        cases nesting <;> exact Act.bind_of_failed (admitted_of_none hd) _
      rw [hfail] at h
      cases h
      exact Session.Tells.refl s
    | some doc =>
      cases nesting with
      | zero =>
        have hout : next fuel 0 r key s = .exhausted :=
          Act.bind_of_done (admitted_of_free hs hd) _
        rw [hout] at h
        cases h
      | succ nesting =>
        rw [next_succ, seek, Act.bind_of_done (admitted_of_free hs hd)] at h
        have hend : Ends o { s with pending := true } t :=
          (locked_guarded fuel nesting doc fuel key s).post_of_finish
            (fun _ _ _ _ => ends_of_calm) rfl h
        exact hend.1

end Play
end Parley
