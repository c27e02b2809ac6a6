import Parley.Proofs.Guard
import Parley.Pool
import Mathlib.Data.List.Induction

/-
Requests that overlap.

Any number of requests share one session and take turns in any order.  Beside the
pool of these requests runs a second one whose host methods have all their
requests refused, turn by turn.  `Lockstep` is the invariant of both pools: at most
one request has been let in, the guard is held exactly while there is one, and it
stands at the same place in both pools.  `Exclusive` collects what follows.
-/

namespace Parley
namespace Play

variable (fuel nesting : Nat)

/-- What one request does in the two pools: from its first turn on it has begun, and
it holds the guard from the turn that lets it in. -/
inductive Stand (call : Option Resource × String) :
    Bool → Bool → Thread Session Fault (Option Line) → Thread Session Fault (Option Line) → Prop
  | fresh : Stand call false false (.waiting (next fuel (nesting + 1) call.1 call.2))
      (.waiting (seek refused fuel call.1 call.2))
  | held {k k' : Session → Progress Session Fault (Option Line)} :
    (∀ u, u.pending = true → Locked Ends u (k u) (k' u)) →
      Stand call true true (.waiting k) (.waiting k')
  | ended (r : Except Fault (Option Line)) : Stand call true false (.ended r) (.ended r)
  | stuck (holds : Bool) : Stand call true holds .stuck .stuck

/-- The two pools after the same turns, with the request that holds the guard. -/
structure Lockstep (calls : List (Option Resource × String)) (order : List Nat)
    (holder : Option Nat) (p q : Pool Session Fault (Option Line)) : Prop where
  state_eq : q.state = p.state
  pending_eq : p.state.pending = holder.isSome
  length_eq : p.threads.length = calls.length
  length_eq' : q.threads.length = calls.length
  holder_mem : ∀ i, holder = some i → ∃ call, calls[i]? = some call
  stand : ∀ i call, calls[i]? = some call → ∃ t t', p.threads[i]? = some t ∧
    q.threads[i]? = some t' ∧
      Stand fuel nesting call (decide (i ∈ order)) (decide (holder = some i)) t t'

variable {fuel nesting}
variable {calls : List (Option Resource × String)} {order : List Nat} {holder : Option Nat}
  {p q : Pool Session Fault (Option Line)} {i : Nat} {call : Option Resource × String}

/-- Turning one thread in both pools needs a look at that thread only. -/
theorem Lockstep.set {holder' : Option Nat} {s : Session}
    {t t' : Thread Session Fault (Option Line)}
    (h : Lockstep fuel nesting calls order holder p q) (hi : calls[i]? = some call)
    (hpend : s.pending = holder'.isSome)
    (hother : ∀ j, j ≠ i → (holder' = some j ↔ holder = some j))
    (ht : Stand fuel nesting call true (decide (holder' = some i)) t t') :
    Lockstep fuel nesting calls (order ++ [i]) holder'
      { state := s, threads := p.threads.set i t }
      { state := s, threads := q.threads.set i t' } where
  state_eq := rfl
  pending_eq := hpend
  length_eq := by rw [List.length_set, h.length_eq]
  length_eq' := by rw [List.length_set, h.length_eq']
  holder_mem j hj := by
    by_cases hij : j = i
    · exact ⟨call, hij ▸ hi⟩
    · exact h.holder_mem j ((hother j hij).mp hj)
  stand j call' hj := by
    have hlt : j < calls.length := (List.getElem?_eq_some_iff.mp hj).1
    by_cases hij : j = i
    · subst hij
      obtain rfl : call = call' := Option.some.inj (hi.symm.trans hj)
      refine ⟨t, t', List.getElem?_set_self (by rw [h.length_eq]; exact hlt),
        List.getElem?_set_self (by rw [h.length_eq']; exact hlt), ?_⟩
      simpa using ht
    · obtain ⟨u, u', hu, hu', hs⟩ := h.stand j call' hj
      refine ⟨u, u', by rw [List.getElem?_set_ne (Ne.symm hij), hu],
        by rw [List.getElem?_set_ne (Ne.symm hij), hu'], ?_⟩
      have horder : j ∈ order ++ [i] ↔ j ∈ order := Pool.mem_concat_of_ne hij
      simpa only [horder, hother j hij] using hs

/-- A thread that lets its turn pass changes nothing but the record of turns. -/
theorem Lockstep.pass (h : Lockstep fuel nesting calls order holder p q)
    (hi : i ∈ order ∨ calls[i]? = none) :
    Lockstep fuel nesting calls (order ++ [i]) holder p q where
  state_eq := h.state_eq
  pending_eq := h.pending_eq
  length_eq := h.length_eq
  length_eq' := h.length_eq'
  holder_mem := h.holder_mem
  stand j call' hj := by
    have horder : j ∈ order ++ [i] ↔ j ∈ order := Pool.mem_concat_of_begun hi hj
    simpa only [horder] using h.stand j call' hj

theorem Lockstep.settle (h : Lockstep fuel nesting calls order holder p q)
    (hi : calls[i]? = some call) (hholder : holder = none ∨ holder = some i) {u : Session}
    (hu : u.pending = true) {x y : Progress Session Fault (Option Line)}
    (hxy : Locked Ends u x y) :
    ∃ holder', Lockstep fuel nesting calls (order ++ [i]) holder' (p.settle i x)
      (q.settle i y) := by
  have hnone (j : Nat) (hj : j ≠ i) : (none : Option Nat) = some j ↔ holder = some j := by
    rcases hholder with rfl | rfl <;> simp [Ne.symm hj]
  have hsome (j : Nat) (hj : j ≠ i) : some i = some j ↔ holder = some j := by
    rcases hholder with rfl | rfl <;> simp [Ne.symm hj]
  cases hxy with
  | done hpost => exact ⟨none, h.set hi hpost.2 hnone (.ended _)⟩
  | failed hpost => exact ⟨none, h.set hi hpost.2 hnone (.ended _)⟩
  | paused hcalm hk =>
    refine ⟨some i, h.set hi (hcalm.pending_eq.trans hu) hsome ?_⟩
    rw [decide_eq_true rfl]
    exact .held hk
  | exhausted =>
    have hset := h.set hi h.pending_eq (fun _ _ => Iff.rfl) (.stuck (decide (holder = some i)))
    refine ⟨holder, ?_⟩
    show Lockstep _ _ _ _ _ _ { state := q.state, threads := q.threads.set i .stuck }
    rw [h.state_eq]
    exact hset

theorem Lockstep.refuse (h : Lockstep fuel nesting calls order holder p q)
    (hi : calls[i]? = some call) (hholder : holder ≠ some i) (e : Fault) :
    ∃ holder', Lockstep fuel nesting calls (order ++ [i]) holder' (p.settle i (.failed e p.state))
      (q.settle i (.failed e p.state)) := by
  refine ⟨holder, h.set hi h.pending_eq (fun _ _ => Iff.rfl) ?_⟩
  rw [decide_eq_false hholder]
  exact .ended _

/-- One turn keeps the two pools in step. -/
theorem Lockstep.turn (h : Lockstep fuel nesting calls order holder p q) (i : Nat) :
    ∃ holder', Lockstep fuel nesting calls (order ++ [i]) holder' (p.turn i) (q.turn i) := by
  cases hi : calls[i]? with
  | none =>
    have hp : p.threads[i]? = none := Pool.getElem?_of_no_job h.length_eq hi
    have hq : q.threads[i]? = none := Pool.getElem?_of_no_job h.length_eq' hi
    rw [Pool.turn_of_none hp, Pool.turn_of_none hq]
    exact ⟨holder, h.pass (.inr hi)⟩
  | some call =>
    obtain ⟨t, t', hp, hq, hs⟩ := h.stand i call hi
    generalize hbegun : decide (i ∈ order) = begun at hs
    generalize hholds : decide (holder = some i) = holds at hs
    cases hs with
    | fresh =>
      have hne : holder ≠ some i := of_decide_eq_false hholds
      rw [Pool.turn_of_waiting hp, Pool.turn_of_waiting hq, h.state_eq, next_succ]
      cases hpend : p.state.pending with
      | true =>
        rw [seek_of_pending hpend, seek_of_pending hpend]
        exact h.refuse hi hne _
      | false =>
        have hfree : holder = none := by simpa [h.pending_eq] using hpend
        cases hd : (call.1 <|> p.state.default) with
        | none =>
          rw [seek, seek, Act.bind_of_failed (admitted_of_none hd),
            Act.bind_of_failed (admitted_of_none hd)]
          exact h.refuse hi hne _
        | some doc =>
          rw [seek, seek, Act.bind_of_done (admitted_of_free hpend hd),
            Act.bind_of_done (admitted_of_free hpend hd)]
          exact h.settle hi (.inl hfree) rfl (locked_guarded fuel nesting doc fuel call.2 p.state)
    | held hk =>
      have hholder : holder = some i := of_decide_eq_true hholds
      have hpend : p.state.pending = true := by rw [h.pending_eq, hholder, Option.isSome_some]
      rw [Pool.turn_of_waiting hp, Pool.turn_of_waiting hq, h.state_eq]
      exact h.settle hi (.inr hholder) hpend (hk p.state hpend)
    | ended r =>
      rw [Pool.turn_of_ended hp, Pool.turn_of_ended hq]
      exact ⟨holder, h.pass (.inl (of_decide_eq_true hbegun))⟩
    | stuck =>
      rw [Pool.turn_of_stuck hp, Pool.turn_of_stuck hq]
      exact ⟨holder, h.pass (.inl (of_decide_eq_true hbegun))⟩

/-- A request that has begun and still waits is the one that holds the guard. -/
theorem Lockstep.holder_eq (h : Lockstep fuel nesting calls order holder p q) (hi : i ∈ order)
    (hw : p.Waits i) : holder = some i := by
  obtain ⟨go, hgo⟩ := hw
  have hlt : i < calls.length := by
    rw [← h.length_eq]
    exact (List.getElem?_eq_some_iff.mp hgo).1
  obtain ⟨t, t', ht, -, hs⟩ := h.stand i calls[i] (List.getElem?_eq_getElem hlt)
  obtain rfl : t = .waiting go := Option.some.inj (ht.symm.trans hgo)
  rw [decide_eq_true hi] at hs
  generalize hholds : decide (holder = some i) = holds at hs
  cases hs with
  | held _ => exact of_decide_eq_true hholds

theorem Lockstep.fresh (h : Lockstep fuel nesting calls order holder p q)
    (hi : calls[i]? = some call) (hnot : i ∉ order) :
    p.threads[i]? = some (.waiting (next fuel (nesting + 1) call.1 call.2)) ∧
      holder ≠ some i := by
  obtain ⟨t, t', ht, -, hs⟩ := h.stand i call hi
  rw [decide_eq_false hnot] at hs
  generalize hholds : decide (holder = some i) = holds at hs
  cases hs with
  | fresh => exact ⟨ht, of_decide_eq_false hholds⟩

theorem Lockstep.turn_fresh (h : Lockstep fuel nesting calls order holder p q)
    (hheld : holder.isSome) (hi : calls[i]? = some call) (hnot : i ∉ order) :
    p.turn i = { state := p.state,
                 threads := p.threads.set i (.ended (.error (refusal call.1 p.state))) } := by
  have hpend : p.state.pending = true := by rw [h.pending_eq, hheld]
  rw [Pool.turn_of_waiting (h.fresh hi hnot).1, next_of_pending hpend]
  rfl

/-- While one request holds the guard, the turns of all others leave the session as
it is. -/
theorem Lockstep.state_turn_of_ne {j : Nat} (h : Lockstep fuel nesting calls order holder p q)
    (hheld : holder = some i) (hj : j ≠ i) : (p.turn j).state = p.state := by
  cases hc : calls[j]? with
  | none =>
    rw [Pool.turn_of_none (Pool.getElem?_of_no_job h.length_eq hc)]
  | some call =>
    by_cases hnot : j ∈ order
    · obtain ⟨t, t', ht, -, hs⟩ := h.stand j call hc
      have hne : holder ≠ some j := by
        rw [hheld]
        exact fun e => hj (Option.some.inj e).symm
      rw [decide_eq_true hnot, decide_eq_false hne] at hs
      cases hs with
      | ended r => rw [Pool.turn_of_ended ht]
      | stuck => rw [Pool.turn_of_stuck ht]
    · rw [h.turn_fresh (by rw [hheld, Option.isSome_some]) hc hnot]

theorem Lockstep.free (h : Lockstep fuel nesting calls order holder p q)
    (hended : ∀ i ∈ order, i < calls.length → ∃ r, p.result? i = some r) :
    p.state.pending = false := by
  rw [h.pending_eq]
  cases hholder : holder with
  | none => rfl
  | some i =>
    obtain ⟨call, hc⟩ := h.holder_mem i hholder
    obtain ⟨t, t', ht, -, hs⟩ := h.stand i call hc
    rw [decide_eq_true hholder] at hs
    generalize hbegun : decide (i ∈ order) = begun at hs
    have hlt : i < calls.length := (List.getElem?_eq_some_iff.mp hc).1
    cases hs with
    | held _ =>
      obtain ⟨r, hr⟩ := hended i (of_decide_eq_true hbegun) hlt
      simp [Pool.result?, ht] at hr
    | stuck =>
      obtain ⟨r, hr⟩ := hended i (of_decide_eq_true hbegun) hlt
      simp [Pool.result?, ht] at hr

theorem Lockstep.seen_eq (h : Lockstep fuel nesting calls order holder p q) (i : Nat) :
    q.result? i = p.result? i ∧ (q.Waits i ↔ p.Waits i) := by
  cases hc : calls[i]? with
  | none =>
    have hp : p.threads[i]? = none := Pool.getElem?_of_no_job h.length_eq hc
    have hq : q.threads[i]? = none := Pool.getElem?_of_no_job h.length_eq' hc
    simp [Pool.result?, Pool.Waits, hp, hq]
  | some call =>
    obtain ⟨t, t', hp, hq, hs⟩ := h.stand i call hc
    generalize decide (i ∈ order) = begun at hs
    generalize decide (holder = some i) = holds at hs
    cases hs with
    | fresh =>
      exact ⟨by rw [Pool.result?, Pool.result?, hp, hq], fun _ => ⟨_, hp⟩, fun _ => ⟨_, hq⟩⟩
    | held _ =>
      exact ⟨by rw [Pool.result?, Pool.result?, hp, hq], fun _ => ⟨_, hp⟩, fun _ => ⟨_, hq⟩⟩
    | ended r => simp [Pool.result?, Pool.Waits, hp, hq]
    | stuck => simp [Pool.result?, Pool.Waits, hp, hq]

/-! ## Any requests in any order -/

/-- Requests that share a session, after they were given turns in some order. -/
def overlapping (fuel nesting : Nat) (s : Session) (calls : List (Option Resource × String))
    (order : List Nat) : Pool Session Fault (Option Line) :=
  (Pool.start s (calls.map fun c => next fuel (nesting + 1) c.1 c.2)).turns order

/-- The same requests, when host methods have all their requests refused. -/
def overlappingRefused (fuel : Nat) (s : Session) (calls : List (Option Resource × String))
    (order : List Nat) : Pool Session Fault (Option Line) :=
  (Pool.start s (calls.map fun c => seek refused fuel c.1 c.2)).turns order

variable {s : Session}

theorem lockstep_start (hs : s.pending = false) :
    Lockstep fuel nesting calls [] none (overlapping fuel nesting s calls [])
      (overlappingRefused fuel s calls []) where
  state_eq := Eq.trans (b := s) rfl rfl
  pending_eq := hs
  length_eq := (Pool.length_threads_start s _).trans (List.length_map _)
  length_eq' := (Pool.length_threads_start s _).trans (List.length_map _)
  holder_mem i hi := by cases hi
  stand i call hi := by
    have hbegun : decide (i ∈ ([] : List Nat)) = false := decide_eq_false List.not_mem_nil
    have hholds : decide ((none : Option Nat) = some i) = false := decide_eq_false (by simp)
    rw [hbegun, hholds]
    exact ⟨_, _, Pool.getElem?_start (by rw [List.getElem?_map, hi]; rfl),
      Pool.getElem?_start (by rw [List.getElem?_map, hi]; rfl), .fresh⟩

theorem overlapping_concat (order : List Nat) (i : Nat) :
    overlapping fuel nesting s calls (order ++ [i]) =
      (overlapping fuel nesting s calls order).turn i := Pool.turns_concat _ order i

theorem lockstep_overlapping (fuel nesting : Nat) (calls : List (Option Resource × String))
    (hs : s.pending = false) (order : List Nat) :
    ∃ holder, Lockstep fuel nesting calls order holder (overlapping fuel nesting s calls order)
      (overlappingRefused fuel s calls order) := by
  induction order using List.reverseRecOn with
  | nil => exact ⟨none, lockstep_start hs⟩
  | append_singleton order i ih =>
    obtain ⟨holder, h⟩ := ih
    rw [overlapping_concat, overlappingRefused, Pool.turns_concat]
    exact h.turn i

/-- From its first turn on, a request that waits has the same end ahead as if it had
run on its own from there. -/
theorem finish_of_waiting (hs : s.pending = false) (hi : calls[i]? = some call)
    (hnot : i ∉ order) (w : List Nat) (hw : w = [] ∨ w.head? = some i)
    {go : Session → Progress Session Fault (Option Line)}
    (hgo : (overlapping fuel nesting s calls (order ++ w)).threads[i]? = some (.waiting go)) :
    (go (overlapping fuel nesting s calls (order ++ w)).state).finish =
      (next fuel (nesting + 1) call.1 call.2
        (overlapping fuel nesting s calls order).state).finish := by
  induction w using List.reverseRecOn generalizing go with
  | nil =>
    obtain ⟨holder, h⟩ := lockstep_overlapping fuel nesting calls hs order
    rw [List.append_nil] at hgo ⊢
    obtain rfl := Thread.waiting.inj (Option.some.inj (hgo.symm.trans (h.fresh hi hnot).1))
    rfl
  | append_singleton w j ih =>
    have hw' : w = [] ∨ w.head? = some i := Pool.head?_of_concat hw
    rw [← List.append_assoc, overlapping_concat] at hgo ⊢
    by_cases hj : j = i
    · subst hj
      obtain ⟨go', hgo', hfinish⟩ := Pool.waiting_of_turn hgo
      rw [hfinish]
      exact ih hw' hgo'
    · rw [Pool.getElem?_turn_of_ne (Ne.symm hj)] at hgo
      have hmem : i ∈ order ++ w :=
        List.mem_append_right order (Pool.mem_of_head?_concat hw hj)
      obtain ⟨holder, h⟩ := lockstep_overlapping fuel nesting calls hs (order ++ w)
      rw [h.state_turn_of_ne (h.holder_eq hmem ⟨go, hgo⟩) hj]
      exact ih hw' hgo

/-- What the guard guarantees to requests that overlap. -/
structure Exclusive (fuel nesting : Nat) (s : Session)
    (calls : List (Option Resource × String)) : Prop where
  /-- Of the requests that have begun at most one still waits: it is past the guard. -/
  one : ∀ order i j, i ∈ order → j ∈ order →
    (overlapping fuel nesting s calls order).Waits i →
      (overlapping fuel nesting s calls order).Waits j → i = j
  /-- Meanwhile a request that has a document and begins is refused.  It ends at once
  and leaves the session and all other requests as they are. -/
  refuses : ∀ order i j call, i ∈ order → (overlapping fuel nesting s calls order).Waits i →
    j ∉ order → calls[j]? = some call →
      (call.1 <|> (overlapping fuel nesting s calls order).state.default).isSome →
        (overlapping fuel nesting s calls order).turn j =
          { state := (overlapping fuel nesting s calls order).state,
            threads := (overlapping fuel nesting s calls order).threads.set j
              (.ended (.error .inProgress)) }
  /-- A request that a host method makes while a walk is on the stack fares alike, at
  whatever depth. -/
  stacked : ∀ (t : Session) (depth : Nat) (doc : Option Resource) (key : String),
    t.pending = true → (doc <|> t.default).isSome →
      next fuel depth doc key t = .failed .inProgress t
  /-- No host method is ever answered otherwise: the requests run as they do when
  those of host methods are refused without further ado. -/
  nested : ∀ order,
    (overlappingRefused fuel s calls order).state = (overlapping fuel nesting s calls order).state ∧
      ∀ i, (overlappingRefused fuel s calls order).result? i =
          (overlapping fuel nesting s calls order).result? i ∧
        ((overlappingRefused fuel s calls order).Waits i ↔
          (overlapping fuel nesting s calls order).Waits i)
  /-- However the others' turns lie between its own, a request that ends does so as it
  would have on its own from where it began: with the same result, and with the same
  session and trace. -/
  alone : ∀ order w i call r, calls[i]? = some call → i ∉ order → (w = [] ∨ w.head? = some i) →
    (overlapping fuel nesting s calls (order ++ w)).Waits i →
      (overlapping fuel nesting s calls (order ++ w ++ [i])).result? i = some r →
        (next fuel (nesting + 1) call.1 call.2
            (overlapping fuel nesting s calls order).state).finish =
          some (r, (overlapping fuel nesting s calls (order ++ w ++ [i])).state)
  /-- Once every request that has begun has ended, in whatever way, the guard is free
  and the next request that has a document is let in. -/
  admits : ∀ order j call doc,
    (∀ i ∈ order, i < calls.length →
      ∃ r, (overlapping fuel nesting s calls order).result? i = some r) →
      j ∉ order → calls[j]? = some call →
        (call.1 <|> (overlapping fuel nesting s calls order).state.default) = some doc →
          (overlapping fuel nesting s calls order).state.pending = false ∧
            (overlapping fuel nesting s calls order).turn j =
              (overlapping fuel nesting s calls order).settle j
                (guarded (walk (answer fuel nesting) doc fuel call.2)
                  (overlapping fuel nesting s calls order).state)

theorem waiting_of_result? {r : Except Fault (Option Line)}
    {p : Pool Session Fault (Option Line)} (hw : p.Waits i) (hr : (p.turn i).result? i = some r) :
    ∃ go, p.threads[i]? = some (.waiting go) ∧
      (go p.state).finish = some (r, (p.turn i).state) := by
  obtain ⟨go, hgo⟩ := hw
  refine ⟨go, hgo, Pool.finish_of_turn hgo ?_⟩
  unfold Pool.result? at hr
  split at hr
  · next r' hr' =>
    cases hr
    exact hr'
  · cases hr

/-- From a session in which no walk is under way the guard holds, for any requests in
any order. -/
theorem exclusive_of_free (fuel nesting : Nat) (s : Session)
    (calls : List (Option Resource × String)) (hs : s.pending = false) :
    Exclusive fuel nesting s calls where
  one order i j hi hj hwi hwj := by
    obtain ⟨holder, h⟩ := lockstep_overlapping fuel nesting calls hs order
    exact Option.some.inj ((h.holder_eq hi hwi).symm.trans (h.holder_eq hj hwj))
  refuses order i j call hi hwi hj hc hdoc := by
    obtain ⟨holder, h⟩ := lockstep_overlapping fuel nesting calls hs order
    have hheld : holder.isSome := by rw [h.holder_eq hi hwi, Option.isSome_some]
    rw [h.turn_fresh hheld hc hj, refusal_of_isSome hdoc]
  stacked t depth doc key ht hdoc := by
    rw [next_of_pending ht, refusal_of_isSome hdoc]
  nested order := by
    obtain ⟨holder, h⟩ := lockstep_overlapping fuel nesting calls hs order
    exact ⟨h.state_eq, h.seen_eq⟩
  alone order w i call r hc hi hw hwait hr := by
    rw [overlapping_concat] at hr ⊢
    obtain ⟨go, hgo, hfinish⟩ := waiting_of_result? hwait hr
    rw [← hfinish]
    exact (finish_of_waiting hs hc hi w hw hgo).symm
  admits order j call doc hended hj hc hdoc := by
    obtain ⟨holder, h⟩ := lockstep_overlapping fuel nesting calls hs order
    have hpend := h.free hended
    refine ⟨hpend, ?_⟩
    rw [Pool.turn_of_waiting (h.fresh hc hj).1, next_succ, seek,
      Act.bind_of_done (admitted_of_free hpend hdoc)]

/-- A document that sleeps before its only line. -/
def sleepyDocument : Resource :=
  { lines :=
      [("1", { kind := .mutation, nextId := "2",
               mutation := some { lhsKind := .function, lhsFunction := some "wait" } }),
       ("2", { kind := .dialogue, text := "Good morning." })] }

theorem exclusive_sleepy :
    ({ default := some sleepyDocument } : Session).pending = false ∧
      Exclusive 4 0 { default := some sleepyDocument } [(none, "1"), (none, "2")] ∧
      (overlapping 4 0 { default := some sleepyDocument } [(none, "1"), (none, "2")]
        [0, 1]).result? 1 = some (.error .inProgress) := by
  have hlaw := exclusive_of_free 4 0 { default := some sleepyDocument }
    [(none, "1"), (none, "2")] rfl
  refine ⟨rfl, hlaw, ?_⟩
  have hturn := hlaw.refuses [0] 0 1 (none, "2") (by decide) ⟨_, rfl⟩ (by decide) rfl rfl
  rw [show [0, 1] = [0] ++ [1] from rfl, overlapping_concat, hturn]
  rfl

end Play
end Parley
