import Parley.Act

/-
Runs that take turns on one state.

A turn takes one run from where it stands to its next pause or its end.  Turns
may be given in any order.
-/

namespace Parley

/-- A run among others: still to go on, ended, or out of fuel. -/
inductive Thread (σ ε α : Type) where
  | waiting (go : σ → Progress σ ε α)
  | ended (result : Except ε α)
  | stuck

structure Pool (σ ε α : Type) where
  state : σ
  threads : List (Thread σ ε α)

namespace Pool

variable {σ ε α : Type}

/-- Runs that have not begun. -/
def start (s : σ) (acts : List (Act σ ε α)) : Pool σ ε α :=
  { state := s, threads := acts.map fun act : Act σ ε α => .waiting act }

theorem length_threads_start (s : σ) (acts : List (Act σ ε α)) :
    (start s acts).threads.length = acts.length := List.length_map _

theorem getElem?_start {s : σ} {acts : List (Act σ ε α)} {i : Nat} {act : Act σ ε α}
    (h : acts[i]? = some act) : (start s acts).threads[i]? = some (.waiting act) := by
  simp [start, h]

/-- Where a thread stands after some progress, and the state it left. -/
def settle (p : Pool σ ε α) (i : Nat) : Progress σ ε α → Pool σ ε α
  | .done a s => { state := s, threads := p.threads.set i (.ended (.ok a)) }
  | .failed e s => { state := s, threads := p.threads.set i (.ended (.error e)) }
  | .paused s resume => { state := s, threads := p.threads.set i (.waiting resume) }
  | .exhausted => { p with threads := p.threads.set i .stuck }

/-- Gives one thread a turn; one that is not waiting lets it pass. -/
def turn (p : Pool σ ε α) (i : Nat) : Pool σ ε α :=
  match p.threads[i]? with
  | some (.waiting go) => p.settle i (go p.state)
  | _ => p

theorem length_threads_settle (p : Pool σ ε α) (i : Nat) (r : Progress σ ε α) :
    (p.settle i r).threads.length = p.threads.length := by
  cases r <;> simp [settle]

theorem length_threads_turn (p : Pool σ ε α) (i : Nat) :
    (p.turn i).threads.length = p.threads.length := by
  unfold turn
  split
  · exact length_threads_settle p i _
  · rfl

theorem turn_of_ended {p : Pool σ ε α} {i : Nat} {r : Except ε α}
    (h : p.threads[i]? = some (.ended r)) : p.turn i = p := by
  simp [turn, h]

theorem turn_of_waiting {p : Pool σ ε α} {i : Nat} {go : σ → Progress σ ε α}
    (h : p.threads[i]? = some (.waiting go)) : p.turn i = p.settle i (go p.state) := by
  simp [turn, h]

theorem turn_of_stuck {p : Pool σ ε α} {i : Nat} (h : p.threads[i]? = some .stuck) :
    p.turn i = p := by
  simp [turn, h]

theorem turn_of_none {p : Pool σ ε α} {i : Nat} (h : p.threads[i]? = none) : p.turn i = p := by
  simp [turn, h]

theorem getElem?_settle_of_ne {i j : Nat} (h : j ≠ i) (p : Pool σ ε α) (r : Progress σ ε α) :
    (p.settle i r).threads[j]? = p.threads[j]? := by
  cases r <;> simp [settle, List.getElem?_set_ne (Ne.symm h)]

theorem getElem?_turn_of_ne {i j : Nat} (h : j ≠ i) (p : Pool σ ε α) :
    (p.turn i).threads[j]? = p.threads[j]? := by
  unfold turn
  split
  · exact getElem?_settle_of_ne h p _
  · rfl

/-- What waits after a turn waited before it, and has the same end ahead if it is
run on its own from there. -/
theorem waiting_of_turn {p : Pool σ ε α} {i : Nat} {go' : σ → Progress σ ε α}
    (h : (p.turn i).threads[i]? = some (.waiting go')) :
    ∃ go, p.threads[i]? = some (.waiting go) ∧
      (go' (p.turn i).state).finish = (go p.state).finish := by
  cases ht : p.threads[i]? with
  | none =>
    rw [turn_of_none ht, ht] at h
    cases h
  | some t =>
    have hlt : i < p.threads.length := (List.getElem?_eq_some_iff.mp ht).1
    cases t with
    | waiting go =>
      refine ⟨go, rfl, ?_⟩
      rw [turn_of_waiting ht] at h ⊢
      cases hr : go p.state with
      | paused s k =>
        rw [hr] at h
        simp only [settle, List.getElem?_set_self hlt, Option.some.injEq, Thread.waiting.injEq] at h
        subst h
        rfl
      | _ =>
        rw [hr] at h
        simp [settle, List.getElem?_set_self hlt] at h
    | ended r =>
      rw [turn_of_ended ht, ht] at h
      cases h
    | stuck =>
      rw [turn_of_stuck ht, ht] at h
      cases h

/-- A turn that ends a thread finishes it, and leaves the state it finished in. -/
theorem finish_of_turn {p : Pool σ ε α} {i : Nat} {go : σ → Progress σ ε α} {r : Except ε α}
    (h : p.threads[i]? = some (.waiting go)) (hr : (p.turn i).threads[i]? = some (.ended r)) :
    (go p.state).finish = some (r, (p.turn i).state) := by
  have hlt : i < p.threads.length := (List.getElem?_eq_some_iff.mp h).1
  rw [turn_of_waiting h] at hr ⊢
  cases hp : go p.state with
  | done a s =>
    rw [hp] at hr
    simp only [settle, List.getElem?_set_self hlt, Option.some.injEq, Thread.ended.injEq] at hr
    rw [← hr]
    rfl
  | failed e s =>
    rw [hp] at hr
    simp only [settle, List.getElem?_set_self hlt, Option.some.injEq, Thread.ended.injEq] at hr
    rw [← hr]
    rfl
  | paused s k =>
    rw [hp] at hr
    simp [settle, List.getElem?_set_self hlt] at hr
  | exhausted =>
    rw [hp] at hr
    simp [settle, List.getElem?_set_self hlt] at hr

def turns (p : Pool σ ε α) (order : List Nat) : Pool σ ε α := order.foldl turn p

theorem turns_append (p : Pool σ ε α) (order order' : List Nat) :
    p.turns (order ++ order') = (p.turns order).turns order' := List.foldl_append

theorem turns_concat (p : Pool σ ε α) (order : List Nat) (i : Nat) :
    p.turns (order ++ [i]) = (p.turns order).turn i := turns_append p order [i]

/-! ## Who has had a turn

A list of what each thread runs stands beside the pool, and the order of turns so far. -/

section

variable {κ : Type} {jobs : List κ} {order : List Nat} {i j : Nat}

theorem getElem?_of_no_job {p : Pool σ ε α} (h : p.threads.length = jobs.length)
    (hi : jobs[i]? = none) : p.threads[i]? = none := by
  rw [List.getElem?_eq_none_iff] at hi ⊢
  rwa [h]

/-- A turn that a thread has had before, or that goes to nobody, lets no other thread begin. -/
theorem mem_concat_of_begun {job : κ} (hi : i ∈ order ∨ jobs[i]? = none)
    (hj : jobs[j]? = some job) : j ∈ order ++ [i] ↔ j ∈ order := by
  rw [List.mem_append, List.mem_singleton, or_iff_left_of_imp]
  rintro rfl
  have hjob : jobs[j]? ≠ none := by simp [hj]
  exact hi.resolve_right hjob

theorem mem_concat_of_ne (hij : j ≠ i) : j ∈ order ++ [i] ↔ j ∈ order := by
  simp [hij]

/-- Turns that begin with those of one thread still do without the last one. -/
theorem head?_of_concat (h : order ++ [j] = [] ∨ (order ++ [j]).head? = some i) :
    order = [] ∨ order.head? = some i := by
  cases order with
  | nil => exact .inl rfl
  | cons k order => exact .inr (by simpa using h)

theorem mem_of_head?_concat (h : order ++ [j] = [] ∨ (order ++ [j]).head? = some i)
    (hj : j ≠ i) : i ∈ order := by
  cases order with
  | nil => exact absurd (by simpa using h) hj
  | cons k order =>
    obtain rfl : k = i := by simpa using h
    exact List.mem_cons_self

end

/-- Whether a thread still has something to do. -/
def Waits (p : Pool σ ε α) (i : Nat) : Prop := ∃ go, p.threads[i]? = some (.waiting go)

/-- Gives one thread turns until it ends. -/
def drain (p : Pool σ ε α) (i : Nat) : Pool σ ε α :=
  match p.threads[i]? with
  | some (.waiting go) =>
    match (go p.state).finish with
    | some (r, s) => { state := s, threads := p.threads.set i (.ended r) }
    | none => { p with threads := p.threads.set i .stuck }
  | _ => p

/-- How a thread ended, if it did. -/
def result? (p : Pool σ ε α) (i : Nat) : Option (Except ε α) :=
  match p.threads[i]? with
  | some (.ended r) => some r
  | _ => none

theorem result?_settle {p : Pool σ ε α} {i : Nat} (h : i < p.threads.length)
    (r : Progress σ ε α) : (p.settle i r).result? i =
      match r with
      | .done a _ => some (.ok a)
      | .failed e _ => some (.error e)
      | _ => none := by
  cases r <;> simp [settle, result?, List.getElem?_set_self h]

theorem result?_of_waits {p : Pool σ ε α} {i : Nat} (h : p.Waits i) : p.result? i = none := by
  obtain ⟨go, hgo⟩ := h
  simp [result?, hgo]

end Pool
end Parley
