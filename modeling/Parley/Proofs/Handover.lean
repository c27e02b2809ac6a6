import Parley.Proofs.Guard
import Parley.Proofs.Uses

/-
What a single run may do to the guard and to the running signal.

`Obeys` speaks of the turns between two pauses: a run may take the guard when it is
free, and then it alone may announce signals and must release the guard at its end;
a run that finds the guard taken announces nothing.  Requests obey, whether they
come from outside or from a host method, and so does everything else that can be
done with a session (`free_act`).
-/

namespace Parley

/-- What one turn does to the guard and the running signal, by whether the run holds
the guard before and after it.  A run that finds the guard held by another one
neither takes it nor announces anything. -/
structure Session.Handover (held : Bool) (s : Session) (held' : Bool) (t : Session) : Prop where
  tells : ∃ gs, s.Tells t gs
  pending_eq : t.pending = (held' || (!held && s.pending))
  barred : held = false → s.pending = true → held' = false ∧ s.Tells t []

namespace Session

theorem Tells.handover {s t : Session} (h : s.Tells t []) (hp : t.pending = s.pending) :
    Handover false s false t where
  tells := ⟨[], h⟩
  pending_eq := by rw [hp]; rfl
  barred _ _ := ⟨rfl, h⟩

theorem handover_of_eq {s t : Session} (ht : t.trace = s.trace) (hr : t.running = s.running)
    (hp : t.pending = s.pending) : Handover false s false t :=
  (tells_of_silent (by rw [ht, List.append_nil]) (by simp) hr).handover hp

theorem Calm.handover {s t : Session} (h : s.Calm t) : Handover false s false t :=
  h.tells.handover h.pending_eq

theorem Calm.handover_of_held {s t : Session} (h : s.Calm t) (hs : s.pending = true) :
    Handover true s true t where
  tells := ⟨[], h.tells⟩
  pending_eq := h.pending_eq.trans hs
  barred hfree := absurd hfree Bool.noConfusion

theorem handover_take {s : Session} (hs : s.pending = false) :
    Handover false s true { s with pending := true } where
  tells := ⟨[], Tells.refl s⟩
  pending_eq := rfl
  barred _ hheld := absurd (hs.symm.trans hheld) Bool.noConfusion

theorem handover_release {s t : Session} (h : ∃ gs, s.Tells t gs) (ht : t.pending = false) :
    Handover true s false t where
  tells := h
  pending_eq := ht
  barred hfree := absurd hfree Bool.noConfusion

theorem Handover.trans {a b c : Bool} {s t u : Session} (h : Handover a s b t)
    (h' : Handover b t c u) : Handover a s c u where
  tells := by
    obtain ⟨gs, hgs⟩ := h.tells
    obtain ⟨hs, hhs⟩ := h'.tells
    exact ⟨gs ++ hs, hgs.trans hhs⟩
  pending_eq := by
    rw [h'.pending_eq, h.pending_eq]
    cases b with
    | false => rw [Bool.false_or]; rfl
    | true =>
      have hfree : (!a && s.pending) = false := by
        cases ha : a with
        | true => rfl
        | false =>
          cases hs : s.pending with
          | false => rfl
          | true => exact absurd (h.barred ha hs).1 Bool.noConfusion
      rw [hfree]
      simp
  barred ha hs := by
    obtain ⟨rfl, hst⟩ := h.barred ha hs
    have ht : t.pending = true := by rw [h.pending_eq, ha, hs]; rfl
    obtain ⟨rfl, htu⟩ := h'.barred rfl ht
    exact ⟨rfl, hst.trans htu⟩

end Session

namespace Play

open Session (Handover)

/-- A run that hands the guard over properly at each of its pauses, for as long as
nobody else releases it while it is held. -/
inductive Obeys {α : Type} : Bool → Session → Progress Session Fault α → Prop
  | done {held : Bool} {s t : Session} {a : α} : Handover held s false t → Obeys held s (.done a t)
  | failed {held : Bool} {s t : Session} {e : Fault} :
    Handover held s false t → Obeys held s (.failed e t)
  | paused {held held' : Bool} {s t : Session} {k : Session → Progress Session Fault α} :
    Handover held s held' t → (∀ u, (held' = true → u.pending = true) → Obeys held' u (k u)) →
      Obeys held s (.paused t k)
  | exhausted {held : Bool} {s : Session} : Obeys held s .exhausted

namespace Obeys

variable {α β : Type} {held held' : Bool} {s t : Session} {p : Progress Session Fault α}

theorem begin (hst : Handover held s held' t) (h : Obeys held' t p) : Obeys held s p := by
  cases h with
  | done h => exact .done (hst.trans h)
  | failed h => exact .failed (hst.trans h)
  | paused h hk => exact .paused (hst.trans h) hk
  | exhausted => exact .exhausted

theorem bind {f : α → Session → Progress Session Fault β} (h : Obeys held s p)
    (hf : ∀ a u, Obeys false u (f a u)) : Obeys held s (p.bind f) := by
  induction h with
  | done h => exact begin h (hf _ _)
  | failed h => exact .failed h
  | paused h hk ih => exact .paused h ih
  | exhausted => exact .exhausted

theorem attempt (h : Obeys held s p) : Obeys held s p.attempt := by
  induction h with
  | done h => exact .done h
  | failed h => exact .done h
  | paused h hk ih => exact .paused h ih
  | exhausted => exact .exhausted

end Obeys

/-- A run under the guard that closes its request releases the guard at its end. -/
theorem Locked.obeys {α : Type} {post : Except Fault α → Session → Session → Prop} {s : Session}
    {p q : Progress Session Fault α} (h : Locked post s p q)
    (hpost : ∀ r u v, post r u v → (∃ gs, u.Tells v gs) ∧ v.pending = false)
    (hs : s.pending = true) : Obeys true s p := by
  induction h with
  | done h =>
    obtain ⟨htells, hfree⟩ := hpost _ _ _ h
    exact .done (Session.handover_release htells hfree)
  | failed h =>
    obtain ⟨htells, hfree⟩ := hpost _ _ _ h
    exact .failed (Session.handover_release htells hfree)
  | paused h hk ih =>
    exact .paused (h.handover_of_held hs) fun u hu => ih u (hu rfl) (hu rfl)
  | exhausted => exact .exhausted

/-! ## Uses of a session -/

/-- A run that obeys from any session on, without the guard. -/
def Free ⦃α : Type⦄ (x : Play α) : Prop := ∀ s, Obeys false s (x s)

theorem free_of_calm {α : Type} {x : Play α}
    (h : ∀ s, (∃ a t, x s = .done a t ∧ s.Calm t) ∨ ∃ e t, x s = .failed e t ∧ s.Calm t) :
    Free x := by
  intro s
  rcases h s with ⟨a, t, hx, ht⟩ | ⟨e, t, hx, ht⟩
  · rw [hx]
    exact .done ht.handover
  · rw [hx]
    exact .failed ht.handover

theorem free_read {α : Type} (f : Session → Except Fault α) : Free (Act.read f) := by
  refine free_of_calm fun s => ?_
  cases hf : f s with
  | ok a => exact .inl ⟨a, s, Act.read_of_ok hf, Session.Calm.refl s⟩
  | error e => exact .inr ⟨e, s, Act.read_of_error hf, Session.Calm.refl s⟩

theorem free_modify {f : Session → Session} (h : ∀ s : Session, s.Calm (f s)) :
    Free (Act.modify f) := fun s => .done (h s).handover

theorem free_writing (f : Bindings → Except Fault Bindings) : Free (writing f) := by
  refine free_of_calm fun s => ?_
  unfold writing
  split
  · exact .inl ⟨(), _, rfl, Session.calm_of_eq rfl rfl rfl rfl⟩
  · exact .inr ⟨_, s, rfl, Session.Calm.refl s⟩

theorem Free.bind {α β : Type} {x : Play α} {f : α → Play β} (hx : Free x)
    (hf : ∀ a, Free (f a)) : Free (x >>= f) := fun s => (hx s).bind hf

theorem congruence_free : Congruence (First Free) where
  bind := Free.bind
  read f := free_read _
  writeAt i name value := free_writing _
  setUnknown _ _ :=
    setUnknown_of_parts (R := First Free) Free.bind (fun _ => free_read _) (free_writing _)
  note he := free_modify fun s => Session.calm_record he s
  pause s := .paused (Session.Calm.refl s).handover fun u _ => .done (Session.Calm.refl u).handover
  keep v := by
    refine free_of_calm fun s => .inl ?_
    obtain ⟨v', n, hkeep⟩ := exists_keep v s
    exact ⟨v', _, hkeep, Session.calm_of_eq rfl rfl rfl rfl⟩

/-- A request obeys, from outside as well as from a host method. -/
theorem free_next (fuel nesting : Nat) (r : Option Resource) (key : String) :
    Free (next fuel nesting r key) := by
  intro s
  cases hs : s.pending with
  | true =>
    rw [next_of_pending hs]
    exact .failed (Session.Calm.refl s).handover
  | false =>
    cases nesting with
    | zero => exact (free_read _ s).bind fun _ _ => .exhausted
    | succ nesting =>
      rw [next_succ, seek]
      cases hd : (r <|> s.default) with
      | none =>
        rw [Act.bind_of_failed (admitted_of_none hd)]
        exact .failed (Session.Calm.refl s).handover
      | some doc =>
        rw [Act.bind_of_done (admitted_of_free hs hd)]
        refine Obeys.begin (Session.handover_take hs)
          ((locked_guarded fuel nesting doc fuel key s).obeys ?_ rfl)
        exact fun _ _ _ h => ⟨⟨_, h.1⟩, h.2⟩

theorem free_invoke (fuel nesting : Nat) (c : Callable) (args : List Value) :
    First Free (invoke (answer fuel nesting) c args) (invoke (answer fuel nesting) c args) :=
  congruence_free.invoke (fun d key s => ((free_next fuel nesting d key).bind
    fun _ => free_read fun _ => .ok _ : Free (answer fuel nesting d key)) s |>.attempt) c args

end Play

namespace Playthrough

open Play

/-- What an action changes by itself is neither the guard nor anything that was announced. -/
theorem handover_of_adjusts {a : Action} {f : Session → Session} (h : a.Adjusts f) (s : Session) :
    Session.Handover false s false (f s) := by
  cases h with
  | introduce _ id r =>
    obtain ⟨reactions, hs⟩ := Session.exists_introduce id r s
    rw [hs]
    exact Session.handover_of_eq rfl rfl rfl
  | _ => exact Session.handover_of_eq rfl rfl rfl

/-- Whatever else is done with a session obeys. -/
theorem free_act (visits : Nat) (p : Playthrough) (a : Action) : Free (p.act visits a) :=
  congruence_free.act (R := First Free) (free_invoke visits nestingLimit) (fun _ => .exhausted) p a
    fun _ hf s => .done (handover_of_adjusts hf s)

end Playthrough
end Parley
