import Parley.Proofs.Congruence

/-
What a trace says about the running signal.

The signals of a trace must alternate with the running signal, and whoever hears
one must see the running signal as it has just become.  `track` reads a trace from
a given running signal, refuses an entry that does not fit, and gives the running
signal at the end.  Every move of the signal leaves a trace that `track` accepts
(`setRunning_tells`), and so does every sequence of them (`Tells.trans`).
-/

namespace Parley

namespace Signal

/-- The signal that moves the running signal away from where it stands. -/
def due (running : Bool) : Signal := if running then .finished else .started

end Signal

namespace Entry

def signal? : Entry → Option Signal
  | .announced g => some g
  | _ => none

/-- The running signal after an entry; nothing if the entry does not fit. -/
def after (running : Bool) : Entry → Option Bool
  | .announced g => if g = .due running then some (!running) else none
  | .listener _ seen => if seen = running then some running else none
  | .handler _ g => if g = .due (!running) then some running else none
  | _ => some running

theorem after_of_silent {e : Entry} (h : e.Silent) (running : Bool) :
    e.after running = some running := by
  cases e <;> first | rfl | exact absurd h id

theorem signal?_of_silent {e : Entry} (h : e.Silent) : e.signal? = none := by
  cases e <;> first | rfl | exact absurd h id

end Entry

def signals (es : List Entry) : List Signal := es.filterMap Entry.signal?

/-- Reads a trace from a running signal. -/
def track (running : Bool) (es : List Entry) : Option Bool := es.foldlM Entry.after running

@[simp] theorem signals_nil : signals [] = [] := rfl

theorem signals_cons_of_none {e : Entry} (h : e.signal? = none) (es : List Entry) :
    signals (e :: es) = signals es := List.filterMap_cons_none h

theorem signals_cons_of_some {e : Entry} {g : Signal} (h : e.signal? = some g)
    (es : List Entry) : signals (e :: es) = g :: signals es := List.filterMap_cons_some h

theorem signals_append (es fs : List Entry) : signals (es ++ fs) = signals es ++ signals fs :=
  List.filterMap_append

theorem signals_eq_nil {es : List Entry} (h : ∀ e ∈ es, e.signal? = none) : signals es = [] :=
  List.filterMap_eq_nil_iff.mpr h

theorem track_cons (running : Bool) (e : Entry) (es : List Entry) :
    track running (e :: es) = (e.after running).bind fun r => track r es :=
  List.foldlM_cons

theorem track_append (running : Bool) (es fs : List Entry) :
    track running (es ++ fs) = (track running es).bind fun r => track r fs :=
  List.foldlM_append

theorem track_of_steady {running : Bool} {es : List Entry}
    (h : ∀ e ∈ es, e.after running = some running) : track running es = some running := by
  induction es with
  | nil => rfl
  | cons e es ih =>
    rw [track_cons, h e List.mem_cons_self]
    exact ih fun e' he => h e' (List.mem_cons_of_mem e he)

/-! ## What an accepted trace looks like -/

theorem after_eq_of_signal? {e : Entry} {g : Signal} (hg : e.signal? = some g)
    {running next : Bool} (h : e.after running = some next) :
    g = .due running ∧ next = !running := by
  cases e with
  | announced k =>
    cases hg
    obtain ⟨hk, hn⟩ : g = .due running ∧ (!running) = next := by simpa [Entry.after] using h
    exact ⟨hk, hn.symm⟩
  | _ => cases hg

theorem after_eq_of_no_signal {e : Entry} (hg : e.signal? = none) {running next : Bool}
    (h : e.after running = some next) : next = running := by
  cases e with
  | announced k => cases hg
  | listener id seen => simp only [Entry.after] at h; split at h <;> simp_all
  | handler id k => simp only [Entry.after] at h; split at h <;> simp_all
  | _ => cases h; rfl

/-- The signals of an accepted trace alternate, the due one first. -/
theorem signals_getElem?_of_track {running last : Bool} {es : List Entry}
    (h : track running es = some last) {i : Nat} {g : Signal} (hg : (signals es)[i]? = some g) :
    g = if i % 2 = 0 then .due running else .due (!running) := by
  induction es generalizing running i with
  | nil => simp at hg
  | cons e es ih =>
    rw [track_cons] at h
    obtain ⟨next, hnext, h⟩ := Option.bind_eq_some_iff.mp h
    cases hk : e.signal? with
    | none =>
      rw [after_eq_of_no_signal hk hnext] at h
      exact ih h (by rwa [signals_cons_of_none hk] at hg)
    | some k =>
      obtain ⟨rfl, rfl⟩ := after_eq_of_signal? hk hnext
      rw [signals_cons_of_some hk] at hg
      cases i with
      | zero => exact (Option.some.inj hg).symm
      | succ i =>
        rw [ih h hg, Bool.not_not]
        rcases Nat.mod_two_eq_zero_or_one i with h0 | h1
        · simp [h0, Nat.add_mod]
        · simp [h1, Nat.add_mod]

/-- The running signal at the end of an accepted trace is set by its last signal,
and is where it was if there is none. -/
theorem eq_of_track {running last : Bool} {es : List Entry} (h : track running es = some last) :
    last = ((signals es).getLast?.map (· == .started)).getD running := by
  induction es generalizing running with
  | nil => cases h; rfl
  | cons e es ih =>
    rw [track_cons] at h
    obtain ⟨next, hnext, h⟩ := Option.bind_eq_some_iff.mp h
    cases hk : e.signal? with
    | none =>
      rw [after_eq_of_no_signal hk hnext] at h
      rw [signals_cons_of_none hk]
      exact ih h
    | some k =>
      obtain ⟨rfl, rfl⟩ := after_eq_of_signal? hk hnext
      rw [ih h, signals_cons_of_some hk, List.getLast?_cons]
      cases (signals es).getLast? with
      | none => cases running <;> rfl
      | some g => rfl

/-- From a stop, dialogue is running exactly when the last signal said so. -/
theorem running_iff_of_track {last : Bool} {es : List Entry} (h : track false es = some last) :
    last = true ↔ (signals es).getLast? = some .started := by
  rw [eq_of_track h]
  cases (signals es).getLast? with
  | none => simp
  | some g => cases g <;> simp

theorem after_of_track {running last : Bool} {es fs : List Entry} {e : Entry}
    (h : track running (es ++ e :: fs) = some last) :
    ∃ r, track running es = some r ∧ (e.after r).isSome := by
  rw [track_append] at h
  obtain ⟨r, hr, h⟩ := Option.bind_eq_some_iff.mp h
  rw [track_cons] at h
  obtain ⟨r', hr', -⟩ := Option.bind_eq_some_iff.mp h
  exact ⟨r, hr, by simp [hr']⟩

/-! ## Publishing

A publication opens once and then only calls handlers with its own signal, as
long as these do not publish in turn. -/

/-- What may happen on a bus once a publication is open. -/
def Happening.Within {η : Type} (g : Signal) : Happening η → Prop
  | .opened _ => False
  | .called _ k _ => k = g
  | _ => True

namespace Bus

variable {η : Type} {g : Signal}

/-- A use of the bus that stays within an open publication. -/
def Within (g : Signal) {α : Type} (u : Use η α) : Prop :=
  ∀ x r y, (u x).finish = some (r, y) →
    ∃ es, y.history = x.history ++ es ∧ ∀ e ∈ es, e.Within g

theorem within_read {α : Type} (f : Exchange η → Except Fault α) :
    Within g (Act.read f : Use η α) := by
  intro x r y h
  simp only [Act.read] at h
  split at h
  · cases h; exact ⟨[], by simp, by simp⟩
  · cases h; exact ⟨[], by simp, by simp⟩

theorem within_bind {α β : Type} {u : Use η α} {f : α → Use η β} (hu : Within g u)
    (hf : ∀ a, Within g (f a)) : Within g (u >>= f) := by
  intro x r y h
  rcases Act.finish_bind_eq_some h with ⟨a, z, hz, h⟩ | ⟨e, hz, rfl⟩
  · obtain ⟨es, hes, hin⟩ := hu x _ z hz
    obtain ⟨fs, hfs, hin'⟩ := hf a z r y h
    refine ⟨es ++ fs, by rw [hfs, hes, List.append_assoc], fun e he => ?_⟩
    exact (List.mem_append.mp he).elim (hin e) (hin' e)
  · exact hu x _ y hz

theorem within_record {e : Happening η} (he : e.Within g) (f : Bus η → Bus η) :
    Within g (Act.modify fun x => (x.onBus f).record e : Use η Unit) := by
  intro x r y h
  cases h
  exact ⟨[e], rfl, by simpa using he⟩

theorem within_attempt {α : Type} {u : Use η α} (hu : Within g u) :
    Within g (Act.attempt u) := by
  intro x r y h
  obtain ⟨r', -, h⟩ := Act.finish_attempt_eq_some h
  exact hu x r' y h

variable [DecidableEq η]

theorem within_perform {nested : Signal → Table → Use η Unit}
    (hn : ∀ k data, Within g (nested k data)) (d : Deed η) : Within g (perform nested d) := by
  cases d with
  | subscribe word h =>
    exact within_bind (within_read _) fun k =>
      within_record (e := .subscribed k h) trivial _
  | unsubscribe word h =>
    exact within_bind (within_read _) fun k =>
      within_record (e := .unsubscribed k h) trivial _
  | publish word data =>
    exact within_bind (within_read _) fun k => within_bind (within_read _) fun _ => hn k data

theorem within_performAll {nested : Signal → Table → Use η Unit}
    (hn : ∀ k data, Within g (nested k data)) (ds : List (Deed η)) :
    Within g (performAll nested ds) := by
  induction ds with
  | nil => exact within_read fun _ => .ok ()
  | cons d ds ih => exact within_bind (within_perform hn d) fun _ => ih

theorem within_callAll {nested : Signal → Table → Use η Unit}
    (hn : ∀ k data, Within g (nested k data)) (conduct : Conduct η) (data : Table)
    (hs : List η) : Within g (callAll nested conduct g data hs) := by
  have hcall (h : η) : Within g (call nested conduct g data h) := by
    refine within_bind (within_record (e := .called h g data) rfl id) fun _ =>
      within_bind (within_read _) fun r => within_bind (within_performAll hn _) fun _ => ?_
    cases r.fault with
    | some f => exact within_read fun _ => .error f
    | none => exact within_read fun _ => .ok ()
  induction hs with
  | nil => exact within_read fun _ => .ok ()
  | cons h hs ih =>
    refine within_bind (within_attempt (hcall h)) fun r => ?_
    cases r with
    | ok _ => exact ih
    | error e => exact within_bind (within_record (e := .failed g) trivial id) fun _ => ih

/-- A publication whose handlers do not publish opens once and stays its own. -/
theorem history_publish {conduct : Conduct η} {data : Table} {x y : Exchange η}
    {r : Except Fault Unit} (h : (publish conduct 1 g data x).finish = some (r, y)) :
    ∃ es, y.history = x.history ++ .opened g :: es ∧ ∀ e ∈ es, e.Within g := by
  have hn (k : Signal) (data : Table) : Within g (publish conduct 0 k data) :=
    fun _ _ _ h => by cases h
  have hrest : Within g (do
      callAll (publish conduct 0) conduct g data (x.bus.handlers g)
      Act.modify fun x => x.record (.closed g)) :=
    within_bind (within_callAll hn conduct data _)
      fun _ => within_record (e := .closed g) trivial id
  obtain ⟨es, hes, hin⟩ := hrest (x.record (.opened g)) r y h
  exact ⟨es, by rw [hes]; simp [Exchange.record], hin⟩

end Bus

/-! ## Moving the running signal -/

/-- From one session to another the trace goes on with entries that fit the running
signal, take it from the one to the other, and announce the given signals. -/
def Session.Tells (s t : Session) (gs : List Signal) : Prop :=
  ∃ es, t.trace = s.trace ++ es ∧ signals es = gs ∧ track s.running es = some t.running

namespace Session

theorem Tells.refl (s : Session) : s.Tells s [] :=
  ⟨[], (List.append_nil _).symm, rfl, rfl⟩

theorem Tells.trans {s t u : Session} {gs hs : List Signal} (h : s.Tells t gs)
    (h' : t.Tells u hs) : s.Tells u (gs ++ hs) := by
  obtain ⟨es, het, hes, hst⟩ := h
  obtain ⟨fs, hft, hfs, htu⟩ := h'
  refine ⟨es ++ fs, ?_, ?_, ?_⟩
  · rw [hft, het, List.append_assoc]
  · rw [signals_append, hes, hfs]
  · rw [track_append, hst]
    exact htu

theorem tells_of_silent {s t : Session} {es : List Entry} (ht : t.trace = s.trace ++ es)
    (hes : ∀ e ∈ es, e.Silent) (hr : t.running = s.running) : s.Tells t [] := by
  refine ⟨es, ht, signals_eq_nil fun e he => Entry.signal?_of_silent (hes e he), ?_⟩
  rw [hr]
  exact track_of_steady fun e he => Entry.after_of_silent (hes e he) s.running

theorem Tells.running_eq {s t : Session} (h : s.Tells t []) : t.running = s.running := by
  obtain ⟨es, -, hes, htr⟩ := h
  rw [eq_of_track htr, hes]
  rfl

end Session

namespace Play

theorem after_heard {g : Signal} {running : Bool} (hg : g = .due (!running))
    {h : Happening Hearer} (hin : h.Within g) {e : Entry} (he : e ∈ heard running h) :
    e.signal? = none ∧ e.after running = some running := by
  cases h with
  | opened k => exact absurd hin id
  | called hearer k data =>
    have hk : k = .due (!running) := Eq.trans hin hg
    cases hearer with
    | listener id =>
      cases List.mem_singleton.mp he
      simp [Entry.signal?, Entry.after]
    | handler id =>
      cases List.mem_singleton.mp he
      simp [Entry.signal?, Entry.after, hk]
  | failed k =>
    cases List.mem_singleton.mp he
    exact ⟨rfl, rfl⟩
  | subscribed k hearer => cases he
  | unsubscribed k hearer => cases he
  | closed k => cases he

/-- A signal that is announced once the running signal has moved leaves the
announcement first and then only entries that fit it. -/
theorem announce_cases {g : Signal} {s : Session} (hg : g = .due (!s.running)) :
    announce g s = .exhausted ∨ ∃ bus es,
      announce g s = .done () { s with bus := bus, trace := s.trace ++ .announced g :: es } ∧
        signals es = [] ∧ track s.running es = some s.running := by
  unfold announce
  split
  · next r x hx =>
    obtain ⟨hs, hhs, hin⟩ := Bus.history_publish hx
    have hfit : ∀ e ∈ hs.flatMap (heard s.running),
        e.signal? = none ∧ e.after s.running = some s.running := by
      intro e he
      obtain ⟨h, hh, he⟩ := List.mem_flatMap.mp he
      exact after_heard hg (hin h hh) he
    refine .inr ⟨x.bus, hs.flatMap (heard s.running), ?_,
      signals_eq_nil fun e he => (hfit e he).1, track_of_steady fun e he => (hfit e he).2⟩
    rw [hhs]
    simp [heard]
  · exact .inl rfl

/-- The signals that move the running signal to a value. -/
def told (was value : Bool) : List Signal := if was = value then [] else [.due was]

theorem setRunning_of_eq {value : Bool} {s : Session} (h : s.running = value) :
    setRunning value s = .done () s := by
  rw [setRunning, if_pos (beq_iff_eq.mpr h)]

/-- The signal that announces a change is due before it. -/
theorem setRunning_of_ne {value : Bool} {s : Session} (h : s.running ≠ value) :
    setRunning value s = announce (.due s.running) { s with running := value } := by
  have hnot : s.running = !value := Bool.eq_not_of_ne h
  have hdue : (if value then Signal.started else .finished) = .due s.running := by
    rw [hnot]
    cases value <;> rfl
  rw [setRunning, if_neg (by simpa using h), hdue]

theorem setRunning_cases (value : Bool) (s : Session) :
    setRunning value s = .exhausted ∨ ∃ bus es,
      setRunning value s =
          .done () { s with running := value, bus := bus, trace := s.trace ++ es } ∧
        signals es = told s.running value ∧ track s.running es = some value := by
  by_cases hv : s.running = value
  · refine .inr ⟨s.bus, [], ?_, by simp [told, hv], by rw [hv]; rfl⟩
    rw [setRunning_of_eq hv, List.append_nil, ← hv]
  · have hnot : s.running = !value := Bool.eq_not_of_ne hv
    have hdue : Signal.due s.running = .due (!({ s with running := value } : Session).running) := by
      rw [hnot]
    rw [setRunning_of_ne hv]
    rcases announce_cases hdue with h | ⟨bus, es, h, hes, htr⟩
    · exact .inl h
    · refine .inr ⟨bus, _, h, ?_, ?_⟩
      · rw [signals_cons_of_some rfl, hes, told, if_neg hv]
      · rw [track_cons, Entry.after, if_pos rfl, hnot, Bool.not_not]
        exact htr

/-- The end of a dialogue is told once, and its start before it if dialogue was not
running. -/
theorem finishDialogue_cases (s : Session) :
    finishDialogue s = .exhausted ∨ ∃ bus es,
      finishDialogue s =
          .done none { s with running := false, bus := bus, trace := s.trace ++ es } ∧
        signals es = told s.running true ++ [.finished] ∧ track s.running es = some false := by
  have hrun : finishDialogue s =
      (setRunning true s).bind fun _ t => (setRunning false t).bind fun _ u => .done none u := rfl
  rcases setRunning_cases true s with h | ⟨bus, es, h, hes, htr⟩
  · exact .inl (by rw [hrun, h]; rfl)
  · rcases setRunning_cases false
        { s with running := true, bus := bus, trace := s.trace ++ es } with
      h' | ⟨bus', fs, h', hfs, hftr⟩
    · exact .inl (by rw [hrun, h, Progress.bind_done, h']; rfl)
    · refine .inr ⟨bus', es ++ fs, ?_, ?_, ?_⟩
      · rw [hrun, h, Progress.bind_done, h', Progress.bind_done, List.append_assoc]
      · rw [signals_append, hes, hfs]
        rfl
      · rw [track_append, htr]
        exact hftr

end Play
end Parley
