import Parley.Proofs.Handover
import Parley.Pool
import Mathlib.Data.List.Induction

/-
The running signal over whole sessions.

Requests for lines, every other use of a session, and changes its host makes to the
bound states share one session and take turns in any order.  `Orderly` is the
invariant of such moves: what has been announced fits the running signal, and the
guard is held exactly while one of them holds it.  `Faithful` collects what follows
for the trace.
-/

namespace Parley

/-- One use of a session: a request for a line, anything else a host can ask for, or
a change the host makes to the bound states by itself. -/
inductive Move where
  | next (document : Option Resource) (key : String)
  | act (a : Action)
  | adjust (f : Bindings → Bindings)

namespace Move

open Play
open Session (Handover)

def run (visits : Nat) (p : Playthrough) : Move → Play (Option Line ⊕ Value)
  | .next document key => do
    return .inl (← Play.next visits Playthrough.nestingLimit document key)
  | .act a => do return .inr (← p.act visits a)
  | .adjust f => do
    Act.modify fun s => { s with bindings := f s.bindings }
    return .inr .null

/-- A request among other moves that ended in the given way. -/
def Leaves : Except Fault (Option Line ⊕ Value) → Session → Session → Prop
  | .ok (.inl l), s, t => Ends (.ok l) s t
  | .ok (.inr _), _, _ => False
  | .error e, s, t => Ends (.error e) s t

theorem closes_of_leaves {r : Except Fault (Option Line ⊕ Value)} {s t : Session}
    (h : Leaves r s t) : ∃ o : Except Fault (Option Line), r = o.map .inl ∧ Ends o s t := by
  match r, h with
  | .ok (.inl l), h => exact ⟨.ok l, rfl, h⟩
  | .error e, h => exact ⟨.error e, rfl, h⟩

theorem locked_leaves (visits : Nat) (doc : Resource) (key : String) (s : Session) :
    Locked Leaves { s with pending := true }
      ((guarded (walk (answer visits 0) doc visits key) s).bind fun l t => .done (.inl l) t)
      ((guarded (walk refused doc visits key) s).bind fun l t => .done (.inl l) t) :=
  (locked_guarded visits 0 doc visits key s).bind rfl (fun _ _ _ h => h) fun _ _ _ _ h => .done h

theorem free_run_act (visits : Nat) (p : Playthrough) (a : Action) :
    Free ((Move.act a).run visits p) :=
  Free.bind (Playthrough.free_act visits p a) fun _ => congruence_free.pure _

theorem free_run_adjust (visits : Nat) (p : Playthrough) (f : Bindings → Bindings) :
    Free ((Move.adjust f).run visits p) :=
  Free.bind (free_modify fun _ => Session.calm_of_eq rfl rfl rfl rfl) fun _ =>
    congruence_free.pure _

/-- Where a move stands among others: from its first turn on it has begun, and it may
hold the guard.  A request that waits always does. -/
inductive Stage (visits : Nat) (p : Playthrough) :
    Move → Bool → Bool → Thread Session Fault (Option Line ⊕ Value) → Prop
  | fresh (m : Move) : Stage visits p m false false (.waiting (m.run visits p))
  | walking {document : Option Resource} {key : String}
    {k q : Session → Progress Session Fault (Option Line ⊕ Value)} :
    (∀ u, u.pending = true → Locked Leaves u (k u) (q u)) →
      Stage visits p (.next document key) true true (.waiting k)
  | acting {m : Move} {held : Bool}
    {k : Session → Progress Session Fault (Option Line ⊕ Value)} :
    (∀ document key, m ≠ .next document key) →
      (∀ u, (held = true → u.pending = true) → Obeys held u (k u)) →
        Stage visits p m true held (.waiting k)
  | ended (m : Move) (r : Except Fault (Option Line ⊕ Value)) :
    Stage visits p m true false (.ended r)
  | stuck (m : Move) (held : Bool) : Stage visits p m true held .stuck

/-- Moves after some turns, from the session they began in: what was announced fits
the running signal, and the guard is held exactly if one of them holds it. -/
structure Orderly (visits : Nat) (p : Playthrough) (s : Session) (moves : List Move)
    (order : List Nat) (holder : Option Nat)
    (q : Pool Session Fault (Option Line ⊕ Value)) : Prop where
  tells : ∃ gs, s.Tells q.state gs
  pending_eq : q.state.pending = holder.isSome
  length_eq : q.threads.length = moves.length
  stage : ∀ i m, moves[i]? = some m → ∃ t, q.threads[i]? = some t ∧
    Stage visits p m (decide (i ∈ order)) (decide (holder = some i)) t

variable {visits : Nat} {p : Playthrough} {s : Session} {moves : List Move} {order : List Nat}
  {holder : Option Nat} {q : Pool Session Fault (Option Line ⊕ Value)} {i : Nat} {m : Move}

/-- A turn that hands the guard over keeps the moves orderly. -/
theorem Orderly.hand {held' : Bool} {t : Session}
    {τ : Thread Session Fault (Option Line ⊕ Value)}
    (h : Orderly visits p s moves order holder q) (hi : moves[i]? = some m)
    (ht : Handover (decide (holder = some i)) q.state held' t)
    (hτ : Stage visits p m true held' τ) :
    ∃ holder', Orderly visits p s moves (order ++ [i]) holder'
      { state := t, threads := q.threads.set i τ } := by
  obtain ⟨gs, hgs⟩ := h.tells
  obtain ⟨hs, hhs⟩ := ht.tells
  have hlt : i < q.threads.length := by
    rw [h.length_eq]
    exact (List.getElem?_eq_some_iff.mp hi).1
  -- the guard passes to this thread, or from it to nobody, or stays where it is
  have hholder : ∃ holder', t.pending = holder'.isSome ∧ decide (holder' = some i) = held' ∧
      ∀ j, j ≠ i → (holder' = some j ↔ holder = some j) := by
    have hpend := ht.pending_eq
    rw [h.pending_eq] at hpend
    cases held' with
    | true =>
      have hfree : holder = none ∨ holder = some i := by
        by_cases hme : holder = some i
        · exact .inr hme
        · left
          cases hsome : holder with
          | none => rfl
          | some j =>
            have hbarred := ht.barred (decide_eq_false hme) (by rw [h.pending_eq, hsome]; rfl)
            exact absurd hbarred.1 Bool.noConfusion
      refine ⟨some i, by simpa using hpend, by simp, fun j hj => ?_⟩
      rcases hfree with rfl | rfl <;> simp [Ne.symm hj]
    | false =>
      by_cases hme : holder = some i
      · refine ⟨none, by simpa [hme] using hpend, by simp, fun j hj => ?_⟩
        simp [hme, Ne.symm hj]
      · refine ⟨holder, by simpa [hme] using hpend, by simp [hme], fun j _ => Iff.rfl⟩
  obtain ⟨holder', hpend, hheld, hother⟩ := hholder
  refine ⟨holder', ⟨gs ++ hs, hgs.trans hhs⟩, hpend, by rw [List.length_set, h.length_eq],
    fun j m' hj => ?_⟩
  by_cases hij : j = i
  · subst hij
    obtain rfl : m = m' := Option.some.inj (hi.symm.trans hj)
    refine ⟨τ, List.getElem?_set_self hlt, ?_⟩
    rw [hheld, decide_eq_true (by simp)]
    exact hτ
  · obtain ⟨t', ht', hstage⟩ := h.stage j m' hj
    refine ⟨t', by rw [List.getElem?_set_ne (Ne.symm hij), ht'], ?_⟩
    have horder : j ∈ order ++ [i] ↔ j ∈ order := Pool.mem_concat_of_ne hij
    simpa only [horder, hother j hij] using hstage

theorem Orderly.pass (h : Orderly visits p s moves order holder q)
    (hi : i ∈ order ∨ moves[i]? = none) : Orderly visits p s moves (order ++ [i]) holder q where
  tells := h.tells
  pending_eq := h.pending_eq
  length_eq := h.length_eq
  stage j m hj := by
    have horder : j ∈ order ++ [i] ↔ j ∈ order := Pool.mem_concat_of_begun hi hj
    simpa only [horder] using h.stage j m hj

theorem Orderly.stay (h : Orderly visits p s moves order holder q) :
    Handover (decide (holder = some i)) q.state (decide (holder = some i)) q.state where
  tells := ⟨[], Session.Tells.refl _⟩
  pending_eq := by
    by_cases hme : holder = some i
    · rw [h.pending_eq, hme]
      simp
    · simp [hme]
  barred hheld _ := ⟨hheld, Session.Tells.refl _⟩

theorem Orderly.settle_act (h : Orderly visits p s moves order holder q)
    (hi : moves[i]? = some m) (hm : ∀ document key, m ≠ .next document key)
    {x : Progress Session Fault (Option Line ⊕ Value)}
    (hx : Obeys (decide (holder = some i)) q.state x) :
    ∃ holder', Orderly visits p s moves (order ++ [i]) holder' (q.settle i x) := by
  cases hx with
  | done ht => exact h.hand hi ht (.ended m _)
  | failed ht => exact h.hand hi ht (.ended m _)
  | paused ht hk => exact h.hand hi ht (.acting hm hk)
  | exhausted => exact h.hand hi h.stay (.stuck m _)

theorem Orderly.settle_next {document : Option Resource} {key : String}
    (h : Orderly visits p s moves order holder q) (hi : moves[i]? = some (.next document key))
    {u : Session} (hu : Handover (decide (holder = some i)) q.state true u)
    {x y : Progress Session Fault (Option Line ⊕ Value)} (hxy : Locked Leaves u x y) :
    ∃ holder', Orderly visits p s moves (order ++ [i]) holder' (q.settle i x) := by
  have hpend : u.pending = true := by rw [hu.pending_eq, Bool.true_or]
  have hend {r : Except Fault (Option Line ⊕ Value)} {t : Session} (hr : Leaves r u t) :
      Handover true u false t := by
    obtain ⟨o, -, ho⟩ := closes_of_leaves hr
    exact Session.handover_release ⟨_, ho.1⟩ ho.2
  cases hxy with
  | done hr => exact h.hand hi (hu.trans (hend hr)) (.ended _ _)
  | failed hr => exact h.hand hi (hu.trans (hend hr)) (.ended _ _)
  | paused hcalm hk =>
    exact h.hand hi (hu.trans (hcalm.handover_of_held hpend)) (.walking hk)
  | exhausted => exact h.hand hi h.stay (.stuck _ _)

/-- A request that waits is refused at its turn, or else runs under the guard. -/
theorem Orderly.next_cases {document : Option Resource} {key : String}
    {go : Session → Progress Session Fault (Option Line ⊕ Value)}
    (h : Orderly visits p s moves order holder q) (hi : moves[i]? = some (.next document key))
    (hgo : q.threads[i]? = some (.waiting go)) :
    (∃ e, go q.state = .failed e q.state ∧ holder ≠ some i) ∨
      ∃ u y, u.trace = q.state.trace ∧ u.running = q.state.running ∧
        Handover (decide (holder = some i)) q.state true u ∧
        Locked Leaves u (go q.state) y := by
  obtain ⟨t, ht, hs⟩ := h.stage i _ hi
  obtain rfl : t = .waiting go := Option.some.inj (ht.symm.trans hgo)
  generalize decide (i ∈ order) = begun at hs
  generalize hholds : decide (holder = some i) = holds at hs
  cases hs with
  | fresh =>
    have hne : holder ≠ some i := of_decide_eq_false hholds
    have hrun (x : Progress Session Fault (Option Line))
        (hx : Play.next visits 1 document key q.state = x) :
        (Move.next document key).run visits p q.state = x.bind fun l t => .done (.inl l) t := by
      rw [← hx]
      rfl
    cases hpend : q.state.pending with
    | true => exact .inl ⟨_, hrun _ (next_of_pending hpend visits 1 document key), hne⟩
    | false =>
      cases hd : (document <|> q.state.default) with
      | none => exact .inl ⟨_, hrun _ (Act.bind_of_failed (admitted_of_none hd) _), hne⟩
      | some doc =>
        have htake : Handover false q.state true { q.state with pending := true } :=
          Session.handover_take hpend
        have hxy := locked_leaves visits doc key q.state
        rw [← hrun (guarded (walk (answer visits 0) doc visits key) q.state)
          (Act.bind_of_done (admitted_of_free hpend hd) _)] at hxy
        exact .inr ⟨{ q.state with pending := true }, _, rfl, rfl, htake, hxy⟩
  | walking hk =>
    have hpend : q.state.pending = true := by
      rw [h.pending_eq, of_decide_eq_true hholds, Option.isSome_some]
    exact .inr ⟨q.state, _, rfl, rfl, hholds ▸ h.stay, hk q.state hpend⟩
  | acting hm => exact absurd rfl (hm document key)

/-- One turn keeps the moves orderly. -/
theorem Orderly.turn (h : Orderly visits p s moves order holder q) (i : Nat) :
    ∃ holder', Orderly visits p s moves (order ++ [i]) holder' (q.turn i) := by
  cases hi : moves[i]? with
  | none =>
    rw [Pool.turn_of_none (Pool.getElem?_of_no_job h.length_eq hi)]
    exact ⟨holder, h.pass (.inr hi)⟩
  | some m =>
    obtain ⟨t, ht, hs⟩ := h.stage i m hi
    by_cases hnext : ∃ document key go, m = .next document key ∧ t = .waiting go
    · obtain ⟨document, key, go, rfl, rfl⟩ := hnext
      rw [Pool.turn_of_waiting ht]
      rcases h.next_cases hi ht with ⟨e, he, hne⟩ | ⟨u, y, -, -, hu, hxy⟩
      · rw [he]
        have hstay := h.stay (i := i)
        rw [decide_eq_false hne] at hstay
        exact h.hand hi (by rwa [decide_eq_false hne]) (.ended _ _)
      · exact h.settle_next hi hu hxy
    · generalize hbegun : decide (i ∈ order) = begun at hs
      generalize hholds : decide (holder = some i) = holds at hs
      cases hs with
      | fresh =>
        rw [Pool.turn_of_waiting ht]
        cases m with
        | next document key => exact absurd ⟨document, key, _, rfl, rfl⟩ hnext
        | act a =>
          exact h.settle_act hi (by simp) (hholds ▸ free_run_act visits p a q.state)
        | adjust f =>
          exact h.settle_act hi (by simp) (hholds ▸ free_run_adjust visits p f q.state)
      | walking hk => exact absurd ⟨_, _, _, rfl, rfl⟩ hnext
      | acting hm hk =>
        rw [Pool.turn_of_waiting ht]
        refine h.settle_act hi hm (hholds ▸ hk q.state fun hheld => ?_)
        rw [h.pending_eq, of_decide_eq_true (hholds.trans hheld), Option.isSome_some]
      | ended =>
        rw [Pool.turn_of_ended ht]
        exact ⟨holder, h.pass (.inl (of_decide_eq_true hbegun))⟩
      | stuck =>
        rw [Pool.turn_of_stuck ht]
        exact ⟨holder, h.pass (.inl (of_decide_eq_true hbegun))⟩

/-! ## Requests among the moves -/

theorem tells_settle {x : Progress Session Fault (Option Line ⊕ Value)}
    (hx : Obeys false q.state x) (hp : q.state.pending = true) (i : Nat) :
    q.state.Tells (q.settle i x).state [] := by
  cases hx with
  | done h => exact (h.barred rfl hp).2
  | failed h => exact (h.barred rfl hp).2
  | paused h _ => exact (h.barred rfl hp).2
  | exhausted => exact Session.Tells.refl _

variable {document : Option Resource} {key : String}

theorem Orderly.holder_eq (h : Orderly visits p s moves order holder q)
    (hi : moves[i]? = some (.next document key)) (hmem : i ∈ order) (hw : q.Waits i) :
    holder = some i := by
  obtain ⟨go, hgo⟩ := hw
  obtain ⟨t, ht, hs⟩ := h.stage i _ hi
  obtain rfl : t = .waiting go := Option.some.inj (ht.symm.trans hgo)
  rw [decide_eq_true hmem] at hs
  generalize hholds : decide (holder = some i) = holds at hs
  cases hs with
  | walking _ => exact of_decide_eq_true hholds
  | acting hm => exact absurd rfl (hm document key)

/-- While one move holds the guard, the turns of all others announce nothing. -/
theorem Orderly.tells_turn_of_ne {j : Nat} (h : Orderly visits p s moves order holder q)
    (hheld : holder = some i) (hj : j ≠ i) : q.state.Tells (q.turn j).state [] := by
  have hpend : q.state.pending = true := by rw [h.pending_eq, hheld, Option.isSome_some]
  have hne : holder ≠ some j := by
    rw [hheld]
    exact fun e => hj (Option.some.inj e).symm
  cases hm : moves[j]? with
  | none =>
    rw [Pool.turn_of_none (Pool.getElem?_of_no_job h.length_eq hm)]
    exact Session.Tells.refl _
  | some m =>
    obtain ⟨t, ht, hs⟩ := h.stage j m hm
    rw [decide_eq_false hne] at hs
    generalize decide (j ∈ order) = begun at hs
    cases hs with
    | fresh =>
      rw [Pool.turn_of_waiting ht]
      refine tells_settle ?_ hpend j
      cases m with
      | next document key =>
        exact ((free_next visits 1 document key).bind fun _ => congruence_free.pure _) q.state
      | act a => exact free_run_act visits p a q.state
      | adjust f => exact free_run_adjust visits p f q.state
    | acting _ hk =>
      rw [Pool.turn_of_waiting ht]
      exact tells_settle (hk q.state fun h => Bool.noConfusion h) hpend j
    | ended =>
      rw [Pool.turn_of_ended ht]
      exact Session.Tells.refl _
    | stuck =>
      rw [Pool.turn_of_stuck ht]
      exact Session.Tells.refl _

/-- A turn of a request announces nothing, unless it is the last one, which closes
the request. -/
theorem Orderly.turn_next (h : Orderly visits p s moves order holder q)
    (hi : moves[i]? = some (.next document key)) (hw : q.Waits i) :
    ((q.turn i).result? i = none ∧ q.state.Tells (q.turn i).state []) ∨
      ∃ o : Except Fault (Option Line), (q.turn i).result? i = some (o.map .inl) ∧
        Closes o q.state (q.turn i).state := by
  obtain ⟨go, hgo⟩ := hw
  have hlt : i < q.threads.length := (List.getElem?_eq_some_iff.mp hgo).1
  rw [Pool.turn_of_waiting hgo, Pool.result?_settle hlt]
  rcases h.next_cases hi hgo with ⟨e, he, -⟩ | ⟨u, y, htrace, hrun, -, hxy⟩
  · rw [he]
    exact .inr ⟨.error e, rfl, Session.Tells.refl _⟩
  · have hcloses {r : Except Fault (Option Line ⊕ Value)} {t : Session} (hr : Leaves r u t) :
        ∃ o : Except Fault (Option Line), r = o.map .inl ∧ Closes o q.state t := by
      obtain ⟨o, ho, hclose, -⟩ := closes_of_leaves hr
      refine ⟨o, ho, ?_⟩
      unfold Closes Session.Tells at hclose
      rwa [htrace, hrun] at hclose
    generalize go q.state = x at hxy
    cases hxy with
    | done hr =>
      obtain ⟨o, ho, hclose⟩ := hcloses hr
      exact .inr ⟨o, congrArg some ho, hclose⟩
    | failed hr =>
      obtain ⟨o, ho, hclose⟩ := hcloses hr
      exact .inr ⟨o, congrArg some ho, hclose⟩
    | paused hcalm _ =>
      have htells := hcalm.1
      unfold Session.Tells at htells
      rw [htrace, hrun] at htells
      exact .inl ⟨rfl, htells⟩
    | exhausted => exact .inl ⟨rfl, Session.Tells.refl _⟩

/-! ## Any moves in any order -/

/-- Moves that share a session, after they were given turns in some order. -/
def played (visits : Nat) (p : Playthrough) (s : Session) (moves : List Move)
    (order : List Nat) : Pool Session Fault (Option Line ⊕ Value) :=
  (Pool.start s (moves.map (run visits p))).turns order

theorem played_concat (order : List Nat) (i : Nat) :
    played visits p s moves (order ++ [i]) = (played visits p s moves order).turn i :=
  Pool.turns_concat _ order i

theorem orderly_start (hs : s.pending = false) :
    Orderly visits p s moves [] none (played visits p s moves []) where
  tells := ⟨[], Session.Tells.refl s⟩
  pending_eq := hs
  length_eq := (Pool.length_threads_start s _).trans (List.length_map _)
  stage i m hi := by
    have hbegun : decide (i ∈ ([] : List Nat)) = false := decide_eq_false List.not_mem_nil
    have hholds : decide ((none : Option Nat) = some i) = false := decide_eq_false (by simp)
    rw [hbegun, hholds]
    exact ⟨_, Pool.getElem?_start (by rw [List.getElem?_map, hi]; rfl), .fresh m⟩

theorem orderly_played (visits : Nat) (p : Playthrough) (moves : List Move)
    (hs : s.pending = false) (order : List Nat) :
    ∃ holder, Orderly visits p s moves order holder (played visits p s moves order) := by
  induction order using List.reverseRecOn with
  | nil => exact ⟨none, orderly_start hs⟩
  | append_singleton order i ih =>
    obtain ⟨holder, h⟩ := ih
    rw [played_concat]
    exact h.turn i

/-- From where a request begins to where it still waits nothing is announced, be it by
the request or by others. -/
theorem tells_of_waits (hs : s.pending = false) (hi : moves[i]? = some (.next document key))
    (w : List Nat) (hw : w = [] ∨ w.head? = some i)
    (hwait : (played visits p s moves (order ++ w)).Waits i) :
    (played visits p s moves order).state.Tells (played visits p s moves (order ++ w)).state
      [] := by
  induction w using List.reverseRecOn with
  | nil =>
    rw [List.append_nil]
    exact Session.Tells.refl _
  | append_singleton w j ih =>
    have hw' : w = [] ∨ w.head? = some i := Pool.head?_of_concat hw
    obtain ⟨holder, h⟩ := orderly_played visits p moves hs (order ++ w)
    rw [← List.append_assoc, played_concat] at hwait ⊢
    by_cases hj : j = i
    · subst hj
      obtain ⟨go', hgo'⟩ := hwait
      obtain ⟨go, hgo, -⟩ := Pool.waiting_of_turn hgo'
      refine (ih hw' ⟨go, hgo⟩).trans ?_
      rcases h.turn_next hi ⟨go, hgo⟩ with ⟨-, htells⟩ | ⟨o, ho, -⟩
      · exact htells
      · rw [Pool.result?_of_waits ⟨go', hgo'⟩] at ho
        cases ho
    · have hwait' : (played visits p s moves (order ++ w)).Waits i := by
        obtain ⟨go, hgo⟩ := hwait
        exact ⟨go, by rwa [Pool.getElem?_turn_of_ne (Ne.symm hj)] at hgo⟩
      have hmem : i ∈ order ++ w :=
        List.mem_append_right order (Pool.mem_of_head?_concat hw hj)
      exact (ih hw' hwait').trans (h.tells_turn_of_ne (h.holder_eq hi hmem hwait') hj)

/-- What the trace of a session tells about its running signal, from a session on in
which nothing has happened. -/
structure Faithful (visits : Nat) (p : Playthrough) (s : Session) (moves : List Move) : Prop where
  /-- The signals alternate, and the first one is a start. -/
  alternate : ∀ order i g, (signals (played visits p s moves order).state.trace)[i]? = some g →
    g = if i % 2 = 0 then .started else .finished
  /-- Dialogue is running exactly when the last signal was a start. -/
  running_iff : ∀ order, (played visits p s moves order).state.running = true ↔
    (signals (played visits p s moves order).state.trace).getLast? = some .started
  /-- A listener sees dialogue running exactly when it hears a start. -/
  listener : ∀ order es fs id seen,
    (played visits p s moves order).state.trace = es ++ .listener id seen :: fs →
      (seen = true ↔ (signals es).getLast? = some .started)
  /-- A handler is given the signal that was announced last. -/
  handler : ∀ order es fs id g,
    (played visits p s moves order).state.trace = es ++ .handler id g :: fs →
      (g = .started ↔ (signals es).getLast? = some .started)
  /-- A request moves the signal by how it ends, from where the signal stood when it
  began; others' turns in between announce nothing. -/
  request : ∀ order w i document key r, moves[i]? = some (.next document key) → i ∉ order →
    (w = [] ∨ w.head? = some i) → (played visits p s moves (order ++ w)).Waits i →
      (played visits p s moves (order ++ w ++ [i])).result? i = some r →
        ∃ o : Except Fault (Option Line), r = o.map .inl ∧
          signals (played visits p s moves (order ++ w ++ [i])).state.trace =
            signals (played visits p s moves order).state.trace ++
              heralds (played visits p s moves order).state.running o ∧
          (played visits p s moves (order ++ w ++ [i])).state.running =
            runningAfter (played visits p s moves order).state.running o
  /-- So does a request that a host method makes, at whatever depth and from whatever
  session. -/
  nested : ∀ depth document key t u o,
    (Play.next visits depth document key t).finish = some (o, u) →
      u.running = runningAfter t.running o ∧
        ∃ es, u.trace = t.trace ++ es ∧ signals es = heralds t.running o

theorem track_played (visits : Nat) (p : Playthrough) (moves : List Move)
    (hpend : s.pending = false) (hrun : s.running = false) (htrace : s.trace = [])
    (order : List Nat) : track false (played visits p s moves order).state.trace =
      some (played visits p s moves order).state.running := by
  obtain ⟨holder, h⟩ := orderly_played visits p moves hpend order
  obtain ⟨gs, es, hes, -, htr⟩ := h.tells
  rw [htrace, List.nil_append] at hes
  rw [hes, ← hrun]
  exact htr

theorem fits_of_track {last : Bool} {es fs : List Entry} {e : Entry}
    (h : track false (es ++ e :: fs) = some last) :
    ∃ r, (r = true ↔ (signals es).getLast? = some .started) ∧ (e.after r).isSome := by
  obtain ⟨r, hr, hfit⟩ := after_of_track h
  exact ⟨r, running_iff_of_track hr, hfit⟩

/-- The running signal is right for all moves in any order. -/
theorem faithful_of_fresh (visits : Nat) (p : Playthrough) (s : Session) (moves : List Move)
    (hpend : s.pending = false) (hrun : s.running = false) (htrace : s.trace = []) :
    Faithful visits p s moves where
  alternate order i g hg :=
    signals_getElem?_of_track (track_played visits p moves hpend hrun htrace order) hg
  running_iff order := running_iff_of_track (track_played visits p moves hpend hrun htrace order)
  listener order es fs id seen he := by
    have htrack := track_played visits p moves hpend hrun htrace order
    rw [he] at htrack
    obtain ⟨r, hr, hfit⟩ := fits_of_track htrack
    obtain rfl : seen = r := by
      by_contra hne
      simp [Entry.after, hne] at hfit
    exact hr
  handler order es fs id g he := by
    have htrack := track_played visits p moves hpend hrun htrace order
    rw [he] at htrack
    obtain ⟨r, hr, hfit⟩ := fits_of_track htrack
    have hg : g = .due (!r) := by
      by_contra hne
      simp [Entry.after, hne] at hfit
    rw [← hr, hg]
    cases r <;> decide
  request order w i document key r hi hnot hw hwait hr := by
    obtain ⟨holder, h⟩ := orderly_played visits p moves hpend (order ++ w)
    have hcalm := tells_of_waits hpend hi w hw hwait
    rw [played_concat] at hr ⊢
    rcases h.turn_next hi hwait with ⟨hnone, -⟩ | ⟨o, ho, hclose⟩
    · rw [hnone] at hr
      cases hr
    · have hwhole : Closes o (played visits p s moves order).state
          ((played visits p s moves (order ++ w)).turn i).state := by
        have hboth := hcalm.trans hclose
        rwa [hcalm.running_eq, List.nil_append] at hboth
      obtain ⟨es, hes, hsignals, -⟩ := id hwhole
      refine ⟨o, Option.some.inj (hr.symm.trans ho), ?_, hwhole.running_eq⟩
      rw [hes, signals_append, hsignals]
  nested depth document key t u o h := by
    have hclose : Closes o t u := closes_of_finish h
    obtain ⟨es, hes, hsignals, -⟩ := id hclose
    exact ⟨hclose.running_eq, es, hes, hsignals⟩

def greeting : Resource := { lines := [("1", { kind := .dialogue, text := "Hi." })] }

theorem faithful_greeting :
    Faithful 4 { session := { default := some greeting } } { default := some greeting }
        [.next none "1", .act .reset, .next none ""] ∧
      signals (played 4 { session := { default := some greeting } } { default := some greeting }
        [.next none "1", .act .reset, .next none ""] [0, 1, 2]).state.trace =
          [.started, .finished] := by
  refine ⟨faithful_of_fresh 4 { session := { default := some greeting } }
    { default := some greeting } _ rfl rfl rfl, ?_⟩
  decide +kernel

end Move
end Parley
